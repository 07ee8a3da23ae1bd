import TypedConfig.Binary.Layout

/-!
# Configuration values

A value is a scalar, a sequence, or a mapping whose keys are values too. Equality of values follows
equality of numbers (`Binary64.same`), so a value that holds a NaN differs from itself, and compares
mappings entry by entry in order.
-/
namespace TypedConfig

/-- A tree of configuration data. -/
inductive Value where
  | null
  | boolean (b : Bool)
  | integer (n : Int64)
  | float (x : Binary64)
  | string (s : String)
  | sequence (items : List Value)
  | mapping (entries : List (Value × Value))
deriving Inhabited

/-- The integer of 64 bits with a sign that equals a number, if there is one. -/
def int64? (n : Int) : Option Int64 :=
  if Int64.minValue.toInt ≤ n ∧ n ≤ Int64.maxValue.toInt then some (Int64.ofInt n) else none

namespace Value

/-- The name of a value's kind. -/
def typeName : Value → String
  | .null => "null"
  | .boolean _ => "boolean"
  | .integer _ => "integer"
  | .float _ => "float"
  | .string _ => "string"
  | .sequence _ => "sequence"
  | .mapping _ => "mapping"

def isNull : Value → Bool
  | .null => true
  | _ => false

def boolean? : Value → Option Bool
  | .boolean b => some b
  | _ => none

def integer? : Value → Option Int64
  | .integer n => some n
  | _ => none

def float? : Value → Option Binary64
  | .float x => some x
  | _ => none

def string? : Value → Option String
  | .string s => some s
  | _ => none

def sequence? : Value → Option (List Value)
  | .sequence items => some items
  | _ => none

def mapping? : Value → Option (List (Value × Value))
  | .mapping entries => some entries
  | _ => none

/-! ## Equality -/

mutual

/-- Equality of values: of the same kind and with equal contents. -/
def equal : Value → Value → Bool
  | .null, .null => true
  | .boolean a, .boolean b => a == b
  | .integer a, .integer b => a == b
  | .float a, .float b => a.same b
  | .string a, .string b => a == b
  | .sequence as, .sequence bs => equalItems as bs
  | .mapping as, .mapping bs => equalEntries as bs
  | _, _ => false
termination_by structural a => a

/-- Equality of sequences, element by element. -/
def equalItems : List Value → List Value → Bool
  | [], [] => true
  | a :: as, b :: bs => equal a b && equalItems as bs
  | _, _ => false
termination_by structural as => as

/-- Equality of mappings, entry by entry. -/
def equalEntries : List (Value × Value) → List (Value × Value) → Bool
  | [], [] => true
  | (k, v) :: as, (l, w) :: bs => equal k l && equal v w && equalEntries as bs
  | _, _ => false
termination_by structural as => as

end

instance : BEq Value := ⟨equal⟩

theorem beq_eq_equal (a b : Value) : (a == b) = a.equal b := rfl

end Value

/-!
## Mappings

A mapping is a list of entries in order of insertion. Storing under a key that is present replaces
the value in place, so the first key and its position stay. Lookups take the first entry whose key
is equal to the one asked for; no key that holds a NaN is ever found.
-/

/-- Entries in order of insertion. -/
abbrev Mapping := List (Value × Value)

namespace Mapping

/-- The value under a key. -/
def getValue? (m : Mapping) (key : Value) : Option Value :=
  (m.find? fun entry => entry.1 == key).map Prod.snd

/-- The value under a string key. -/
def get? (m : Mapping) (key : String) : Option Value :=
  (m.find? fun entry => entry.1.string? == some key).map Prod.snd

def containsKey (m : Mapping) (key : String) : Bool := (m.get? key).isSome

/-- Stores a value under a key, and tells which value it replaced. -/
def exchange (key value : Value) : Mapping → Option Value × Mapping
  | [] => (none, [(key, value)])
  | (k, v) :: rest =>
    if k == key then (some v, (k, value) :: rest)
    else
      let (old, rest) := exchange key value rest
      (old, (k, v) :: rest)

/-- The mapping after a value is stored under a key. -/
def insert (m : Mapping) (key value : Value) : Mapping := (exchange key value m).2

/-- Takes the entry of a string key out of a mapping, and tells the value it held. -/
def extract (key : String) : Mapping → Option Value × Mapping
  | [] => (none, [])
  | (k, v) :: rest =>
    if k.string? == some key then (some v, rest)
    else
      let (old, rest) := extract key rest
      (old, (k, v) :: rest)

/-- The mapping without the entry of a string key. -/
def remove (m : Mapping) (key : String) : Mapping := (extract key m).2

def keys (m : Mapping) : List Value := m.map Prod.fst

/-- Stores all entries of `overlay`, in order, over those of `base`. Values are replaced whole. -/
def overlay (base overlay : Mapping) : Mapping :=
  overlay.foldl (fun m entry => m.insert entry.1 entry.2) base

/-- The mapping that storing the pairs of a list in order leaves behind. -/
def ofPairs (pairs : List (Value × Value)) : Mapping := overlay [] pairs

end Mapping

/-!
## The literal form of a value

Strings stand in single quotes, with a backslash before each quote they contain; everything else is
bare. Path segments and messages quote keys in this form.
-/

/-- Floating-point numbers in literals: positional from `0.0001` to below `1e16`, ties upward. -/
def Binary.Layout.literal : Binary.Layout := ⟨.upward, -4, 16, false⟩

/-- The digits of an integer, with a minus sign in front of a negative one. -/
def integerChars (n : Int) : List Char :=
  if n < 0 then '-' :: Nat.toDigits 10 n.natAbs else Nat.toDigits 10 n.natAbs

namespace Value

/-- A string with a backslash in front of each single quote. -/
def escapeQuotes (cs : List Char) : List Char :=
  cs.flatMap fun c => if c = '\x27' then ['\\', c] else [c]

mutual

/-- The characters of a value's literal form. -/
def literalChars : Value → List Char
  | .null => "null".toList
  | .boolean true => "true".toList
  | .boolean false => "false".toList
  | .integer n => integerChars n.toInt
  | .float x => Binary.Layout.literal.text x
  | .string s => '\x27' :: escapeQuotes s.toList ++ ['\x27']
  | .sequence items => '[' :: literalItems items ++ [']']
  | .mapping entries => '\x7b' :: literalEntries entries ++ ['\x7d']
termination_by structural v => v

/-- Elements, with a comma and a space between any two. -/
def literalItems : List Value → List Char
  | [] => []
  | [v] => literalChars v
  | v :: vs => literalChars v ++ ", ".toList ++ literalItems vs
termination_by structural vs => vs

/-- Entries, key before value, with a comma and a space between any two. -/
def literalEntries : List (Value × Value) → List Char
  | [] => []
  | [(k, v)] => literalChars k ++ ": ".toList ++ literalChars v
  | (k, v) :: es => literalChars k ++ ": ".toList ++ literalChars v ++ ", ".toList ++ literalEntries es
termination_by structural es => es

end

/-- The literal form of a value. -/
def literal (v : Value) : String := String.ofList v.literalChars

end Value

end TypedConfig

import TypedConfig.Value.Basic

/-!
# Writing a value as JSON

In JSON only text can be a key, and only a finite number can be written.
-/
namespace TypedConfig

/-!
## Trees with text keys

A tree is what a value becomes when only text may be a key: scalar keys turn into their text, members
are kept in the order of their keys, and a number that is not finite becomes null. Of several members
whose keys have one text, the last is kept.
-/

/-- Floating-point numbers in JSON: positional from `0.00001` to below `1e16`, ties to even. -/
def Binary.Layout.json : Binary.Layout := ⟨.toEven, -5, 16, true⟩

namespace Json

/-- Why a value cannot be a key in JSON. -/
inductive KeyFault where
  /-- Null, a sequence or a mapping. -/
  | notText
  /-- A NaN or an infinity. -/
  | notFinite
deriving DecidableEq, Repr

def KeyFault.message : KeyFault → String
  | .notText => "key must be a string"
  | .notFinite => "float key must be finite (got NaN or +/-inf)"

/-- The text that a scalar has as a key. -/
def keyChars : Value → Except KeyFault (List Char)
  | .string s => .ok s.toList
  | .boolean true => .ok "true".toList
  | .boolean false => .ok "false".toList
  | .integer n => .ok (integerChars n.toInt)
  | .float x => if x.isFinite then .ok (Binary.Layout.json.text x) else .error .notFinite
  | .null => .error .notText
  | .sequence _ => .error .notText
  | .mapping _ => .error .notText

/-- Data with text keys. -/
inductive Tree where
  | null
  | boolean (b : Bool)
  | integer (n : Int64)
  | float (x : Binary64)
  | string (s : String)
  | array (items : List Tree)
  | object (members : List (String × Tree))
deriving Inhabited

namespace Tree

/-- Stores a member in its place among members that are in the order of their keys. -/
def store (key : String) (tree : Tree) : List (String × Tree) → List (String × Tree)
  | [] => [(key, tree)]
  | (k, t) :: rest =>
    if key = k then (k, tree) :: rest
    else if key < k then (key, tree) :: (k, t) :: rest
    else (k, t) :: store key tree rest

mutual

/-- The tree of a value, or the first key that cannot be text, each key standing before its value. -/
def ofValue : Value → Except KeyFault Tree
  | .null => .ok .null
  | .boolean b => .ok (.boolean b)
  | .integer n => .ok (.integer n)
  | .float x => .ok (if x.isFinite then .float x else .null)
  | .string s => .ok (.string s)
  | .sequence items => do return .array (← ofItems items)
  | .mapping entries => do return .object (← ofEntries [] entries)
termination_by structural v => v

def ofItems : List Value → Except KeyFault (List Tree)
  | [] => .ok []
  | v :: vs => do
    let tree ← ofValue v
    return tree :: (← ofItems vs)
termination_by structural vs => vs

/-- The members that entries add to those before them. -/
def ofEntries (members : List (String × Tree)) : List (Value × Value) → Except KeyFault (List (String × Tree))
  | [] => .ok members
  | (k, v) :: es => do
    let key ← keyChars k
    let tree ← ofValue v
    ofEntries (store (String.ofList key) tree members) es
termination_by structural es => es

end

end Tree

end Json

end TypedConfig

/-!
## JSON text of a value

The compact text keeps entries in order, also several with the same text as key.
-/

namespace TypedConfig.Json

/-- How a character is written inside a string. -/
def escapedChar (c : Char) : List Char :=
  if c = '\x22' then ['\\', '\x22']
  else if c = '\\' then ['\\', '\\']
  else if c = '\x08' then ['\\', 'b']
  else if c = '\x0c' then ['\\', 'f']
  else if c = '\n' then ['\\', 'n']
  else if c = '\r' then ['\\', 'r']
  else if c = '\t' then ['\\', 't']
  else if c.toNat < 0x20 then
    ['\\', 'u', '0', '0', Nat.digitChar (c.toNat / 16), Nat.digitChar (c.toNat % 16)]
  else [c]

/-- A string between double quotes. -/
def stringChars (cs : List Char) : List Char := '\x22' :: cs.flatMap escapedChar ++ ['\x22']

mutual

/-- The compact text of a value, or the first key that cannot be text, each key standing before its
    value. -/
def valueChars : Value → Except KeyFault (List Char)
  | .null => .ok "null".toList
  | .boolean true => .ok "true".toList
  | .boolean false => .ok "false".toList
  | .integer n => .ok (integerChars n.toInt)
  | .float x => .ok (if x.isFinite then Binary.Layout.json.text x else "null".toList)
  | .string s => .ok (stringChars s.toList)
  | .sequence items => do return '[' :: (← itemChars items) ++ [']']
  | .mapping entries => do return '\x7b' :: (← entryChars entries) ++ ['\x7d']
termination_by structural v => v

/-- Elements, with a comma between any two. -/
def itemChars : List Value → Except KeyFault (List Char)
  | [] => .ok []
  | [v] => valueChars v
  | v :: vs => do
    let first ← valueChars v
    return first ++ ',' :: (← itemChars vs)
termination_by structural vs => vs

/-- Entries, with a comma between any two. -/
def entryChars : List (Value × Value) → Except KeyFault (List Char)
  | [] => .ok []
  | [(k, v)] => do
    let key ← keyChars k
    return stringChars key ++ ':' :: (← valueChars v)
  | (k, v) :: es => do
    let key ← keyChars k
    let value ← valueChars v
    return stringChars key ++ ':' :: value ++ ',' :: (← entryChars es)
termination_by structural es => es

end

/-- The compact JSON text of a value. -/
def text (v : Value) : Except KeyFault String := (valueChars v).map String.ofList

end TypedConfig.Json

import TypedConfig.Json.Number
import TypedConfig.Json.Text

/-!
# Reading values as types
-/
namespace TypedConfig.Decoding
open Json (KeyFault NumberFault Tree)

/-! ## What can be wrong with a value that is read as a type -/

/-- Why a value cannot be read as a type. -/
inductive Fault where
  /-- A key of the value has no text. -/
  | key (fault : KeyFault)
  | wrongKind (found : Tree) (expected : String)
  | outOfRange (n : Int) (expected : String)
  | wrongText (s expected : String)
  | wrongLength (n : Nat) (expected : String)
  | unknownField (name : String) (known : List String)
  | missingField (name : String)
  | unknownVariant (name : String) (known : List String)
  /-- A variant is written as a mapping that has no entry or more than one. -/
  | notOneVariant
  /-- A key that should be an integer does not start like a number, or goes on after one. -/
  | notNumericKey
  /-- A key that should be an integer starts like a number and is none. -/
  | badNumber (cause : NumberFault.Cause)
  /-- A fault in a text, with the line on which it shows and the column after it. -/
  | located (fault : Fault) (line column : Nat)

/-- A name between grave accents. -/
def marked (name : String) : String := "`" ++ name ++ "`"

/-- The names of which one was expected. -/
def oneOf : List String → String
  | [] => "nothing"
  | [a] => marked a
  | [a, b] => marked a ++ " or " ++ marked b
  | names => "one of " ++ ", ".intercalate (names.map marked)

/-- What a message calls a tree that is of the wrong kind. -/
def describe : Tree → String
  | .null => "null"
  | .boolean b => "boolean " ++ marked (toString b)
  | .integer n => "integer " ++ marked (String.ofList (integerChars n.toInt))
  | .float x => "floating point " ++ marked (String.ofList (Binary.Layout.json.text x))
  | .string s => "string " ++ Text.quoted s
  | .array _ => "sequence"
  | .object _ => "map"

namespace Fault

def message : Fault → String
  | .key fault => fault.message
  | .wrongKind found expected => "invalid type: " ++ describe found ++ ", expected " ++ expected
  | .outOfRange n expected =>
    "invalid value: integer " ++ marked (String.ofList (integerChars n)) ++ ", expected " ++ expected
  | .wrongText s expected => "invalid value: string " ++ Text.quoted s ++ ", expected " ++ expected
  | .wrongLength n expected => "invalid length " ++ toString n ++ ", expected " ++ expected
  | .unknownField name known => "unknown field " ++ marked name ++ ", expected " ++ oneOf known
  | .missingField name => "missing field " ++ marked name
  | .unknownVariant name known => "unknown variant " ++ marked name ++ ", expected " ++ oneOf known
  | .notOneVariant => "invalid value: map, expected map with a single key"
  | .notNumericKey => "invalid value: expected key to be a number in quotes"
  | .badNumber cause => cause.message
  | .located fault line column =>
    message fault ++ " at line " ++ toString line ++ " column " ++ toString column

end Fault

end TypedConfig.Decoding

/-!
## Decoders

A decoder reads a tree as a type. Nothing is coerced: integers must lie in the range of the type, and
only a floating-point type takes a number of another kind. Elements and members are read in order, so
the first fault is the one that is told.
-/

namespace TypedConfig
open Json (Tree)
open Decoding (Fault)

/-- Reads a tree as a type. -/
abbrev Decoder (α : Type) := Tree → Except Fault α

namespace Decoder
variable {α β : Type}

def boolean : Decoder Bool
  | .boolean b => .ok b
  | t => .error (.wrongKind t "a boolean")

/-- Integers from `low` to `high`. -/
def ranged (name : String) (low high : Int) : Decoder Int
  | .integer n =>
    if low ≤ n.toInt ∧ n.toInt ≤ high then .ok n.toInt else .error (.outOfRange n.toInt name)
  | t => .error (.wrongKind t name)

/-- Integers with a sign that fit in a number of bits. -/
def signed (bits : Nat) : Decoder Int :=
  let half : Int := Nat.pow 2 (bits - 1)
  ranged s!"i{bits}" (-half) (half - 1)

/-- Integers without a sign that fit in a number of bits. -/
def unsigned (bits : Nat) : Decoder Int := ranged s!"u{bits}" 0 (Nat.pow 2 bits - 1 : Nat)

def int64 : Decoder Int64
  | .integer n => .ok n
  | t => .error (.wrongKind t "i64")

/-- Floating-point numbers, and integers as the numbers nearest to them. -/
def binary64 : Decoder Binary64
  | .float x => .ok x
  | .integer n => .ok (.ofInt n.toInt)
  | t => .error (.wrongKind t "f64")

def string : Decoder String
  | .string s => .ok s
  | t => .error (.wrongKind t "a string")

/-- Texts of one character. -/
def char : Decoder Char
  | .string s =>
    match s.toList with
    | [c] => .ok c
    | _ => .error (.wrongText s "a character")
  | t => .error (.wrongKind t "a character")

/-- Null only. -/
def unit : Decoder Unit
  | .null => .ok ()
  | t => .error (.wrongKind t "unit")

/-- Null, or what another decoder reads. -/
def optional (inner : Decoder α) : Decoder (Option α)
  | .null => .ok none
  | t => (inner t).map some

/-- Arrays, each element read alike. -/
def list (item : Decoder α) : Decoder (List α)
  | .array items => items.mapM item
  | t => .error (.wrongKind t "a sequence")

/-- Arrays of two. -/
def pair (first : Decoder α) (second : Decoder β) : Decoder (α × β)
  | .array items => do
    let expected := "a tuple of size 2"
    match items with
    | [] => throw (.wrongLength 0 expected)
    | a :: rest =>
      let a ← first a
      match rest with
      | [] => throw (.wrongLength 1 expected)
      | b :: more =>
        let b ← second b
        if more.isEmpty then return (a, b)
        else throw (.wrongLength items.length "fewer elements in array")
  | t => .error (.wrongKind t "a tuple of size 2")

/-- Objects, each member read alike. -/
def members (member : Decoder α) : Decoder (List (String × α))
  | .object ms => ms.mapM fun (key, t) => do return (key, ← member t)
  | t => .error (.wrongKind t "a map")

/-- The integer that a number tells. -/
def integerOf : Event → Except Fault Int64
  | .signed n => .ok n
  | .unsigned n => (int64? n.toNat).elim (.error (.outOfRange n.toNat "i64")) .ok
  | .float x => .error (.wrongKind (.float x) "i64")
  | _ => .error .notNumericKey

/-- A fault that shows at the end of a text whose lines end with line feeds. -/
def locatedAfter (read : List Char) (fault : Fault) : Fault :=
  .located fault (read.count '\n' + 1) (read.reverse.takeWhile (· != '\n')).length

/-- The integer that a key is the text of, written as a number in JSON. -/
def keyInteger (key : String) : Except Fault Int64 :=
  let cs := key.toList
  let before (rest : List Char) := cs.take (cs.length - rest.length)
  if cs.head?.any fun c => c.isDigit || c = '-' then
    match Json.number cs with
    | .error fault => .error (locatedAfter (before fault.rest) (.badNumber fault.cause))
    | .ok (event, rest) => do
      let n ← (integerOf event).mapError (locatedAfter (before rest))
      if rest.isEmpty then return n else throw .notNumericKey
  else .error .notNumericKey

/-- Stores an item in its place among items in the order of their integers. -/
def storeByInteger (key : Int64) (item : α) : List (Int64 × α) → List (Int64 × α)
  | [] => [(key, item)]
  | (k, x) :: rest =>
    if key = k then (k, item) :: rest
    else if key < k then (key, item) :: (k, x) :: rest
    else (k, x) :: storeByInteger key item rest

/-- Objects whose keys are the texts of integers, in the order of the integers. A key is read before
    its value. -/
def integerKeyed (member : Decoder α) : Decoder (List (Int64 × α))
  | .object ms =>
    ms.foldlM (fun found (key, t) => do
      let n ← keyInteger key
      return storeByInteger n (← member t) found) []
  | t => .error (.wrongKind t "a map")

/-- One of several named variants without contents: its name, or an object with the name as its only
    key and null under it. -/
def variant (options : List (String × α)) : Decoder α
  | .string name => named name
  | .object [(name, content)] => do
    let option ← named name
    unit content
    return option
  | .object _ => .error .notOneVariant
  | t => .error (.wrongKind t "string or map")
where
  named (name : String) : Except Fault α :=
    match options.find? (·.1 == name) with
    | some option => .ok option.2
    | none => .error (.unknownVariant name (options.map Prod.fst))

end Decoder

/-! ### Values -/

namespace Json.Tree

mutual

/-- The value of a tree. The mark of dates and times may only be the key of an object's one member. -/
def value : Tree → Except Fault Value
  | .null => .ok .null
  | .boolean b => .ok (.boolean b)
  | .integer n => .ok (.integer n)
  | .float x => .ok (.float x)
  | .string s => .ok (.string s)
  | .array items => do return .sequence (← valueItems items)
  | .object members => valueMembers members.length [] members
termination_by structural t => t

def valueItems : List Tree → Except Fault (List Value)
  | [] => .ok []
  | t :: ts => do
    let v ← value t
    return v :: (← valueItems ts)
termination_by structural ts => ts

/-- The mapping that members add up to, after those already in `m`; `count` is the number of all. -/
def valueMembers (count : Nat) (m : Mapping) : List (String × Tree) → Except Fault Value
  | [] => .ok (.mapping m)
  | (key, t) :: rest => do
    let v ← value t
    if m.standsForWhole (.string key) then
      if rest.isEmpty then return v
      else throw (.wrongLength count "fewer elements in map")
    else valueMembers count (m.insert (.string key) v) rest
termination_by structural members => members

end

end Json.Tree

/-- Any data, as a value. -/
def Decoder.value : Decoder Value := Json.Tree.value

/-- Reads a value as a type. -/
def Value.decode {α : Type} (v : Value) (decoder : Decoder α) : Except Fault α :=
  match Tree.ofValue v with
  | .ok tree => decoder tree
  | .error fault => .error (.key fault)

end TypedConfig

/-!
## Records

A record is read from an object by the names of its fields, or from an array by their order. The
members of an object are read in order, so the first faulty one is told; only then is a missing field.
-/

namespace TypedConfig.Decoding
open Json (Tree)

/-- A field of a record: its name, and whether a tree can be read as its type. -/
structure Field where
  name : String
  check : Tree → Except Fault Unit

/-- A field that a decoder reads. -/
def Field.of {α : Type} (name : String) (decoder : Decoder α) : Field :=
  ⟨name, fun t => (decoder t).map fun _ => ()⟩

/-- A record's name and fields, and whether an object may have other members. -/
structure Record where
  name : String
  fields : List Field
  closed : Bool

namespace Record

/-- The members of a record, each under the name of its field. -/
abbrev Members := List (String × Tree)

def fieldNames (r : Record) : List String := r.fields.map Field.name

/-- What an array of the record's fields is called. -/
def arrayText (r : Record) : String :=
  let n := r.fields.length
  "struct " ++ r.name ++ " with " ++ toString n ++ (if n = 1 then " element" else " elements")

/-- The members that the elements of an array are, from the `i`-th field on. -/
def positional (r : Record) : Nat → List Field → List Tree → Except Fault (Members × List Tree)
  | _, [], rest => .ok ([], rest)
  | i, _ :: _, [] => .error (.wrongLength i r.arrayText)
  | i, field :: fields, t :: ts => do
    field.check t
    let (members, rest) ← r.positional (i + 1) fields ts
    return ((field.name, t) :: members, rest)

/-- The members of an object that belong to a field. -/
def named (r : Record) : List (String × Tree) → Except Fault Members
  | [] => .ok []
  | (key, t) :: rest =>
    match r.fields.find? (·.name == key) with
    | some field => do
      field.check t
      return (key, t) :: (← r.named rest)
    | none => if r.closed then .error (.unknownField key r.fieldNames) else r.named rest

/-- The members of a record. -/
def members (r : Record) : Tree → Except Fault Members
  | .array items => do
    let (found, rest) ← r.positional 0 r.fields items
    if rest.isEmpty then return found
    else throw (.wrongLength items.length "fewer elements in array")
  | .object ms => r.named ms
  | t => .error (.wrongKind t ("struct " ++ r.name))

/-- A field that must be there. -/
def required {α : Type} (ms : Members) (name : String) (decoder : Decoder α) : Except Fault α :=
  match ms.find? (·.1 == name) with
  | some (_, t) => decoder t
  | none => .error (.missingField name)

/-- A field that may be absent. -/
def absentable {α : Type} (ms : Members) (name : String) (decoder : Decoder (Option α)) :
    Except Fault (Option α) :=
  match ms.find? (·.1 == name) with
  | some (_, t) => decoder t
  | none => .ok none

end Record

end TypedConfig.Decoding

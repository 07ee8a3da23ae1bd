import TypedConfig.Value.Basic

/-!
# Reading a value from a source of any format

Whatever the format, its reader tells what it meets as a tree of events, and `Event.read` makes the
value. Integers must fit in 64 bits with a sign; a tag is read and dropped; a mapping whose first key
is `dateTimeMark` stands for the value under that key.
-/
namespace TypedConfig

/-- The key under which a reader hands over a date or a time. -/
def dateTimeMark : String := "$__toml_private_datetime"

/-- Whether an entry with this key makes its value stand for the whole mapping: the mark does, as first key. -/
def Mapping.standsForWhole (m : Mapping) (key : Value) : Bool :=
  m.isEmpty && key.string? == some dateTimeMark

/-- What a reader meets. -/
inductive Event where
  | none
  | unit
  | boolean (b : Bool)
  /-- An integer of at most 64 bits from a source with signed numbers. -/
  | signed (n : Int64)
  /-- An integer of at most 64 bits from a source with unsigned numbers. -/
  | unsigned (n : UInt64)
  /-- An integer of 128 bits, with or without a sign. -/
  | wide (hasSign : Bool) (n : Int)
  | float (x : Binary64)
  | text (s : String)
  | bytes
  /-- A value that could have been absent. -/
  | some (inner : Event)
  /-- A value under the name of a type of its own. -/
  | wrapped (inner : Event)
  | sequence (items : List Event)
  | mapping (entries : List (Event × Event))
  /-- A value with a tag. -/
  | tagged (tag inner : Event)
deriving Inhabited

/-- Why events stand for no value. -/
inductive ReadFault where
  | outOfRange (n : Nat)
  | wideInteger (hasSign : Bool) (n : Int)
  | byteArray
  | wrapped
deriving DecidableEq, Repr

namespace ReadFault

def message : ReadFault → String
  | .outOfRange n => "integer " ++ toString n ++ " is out of range"
  | .wideInteger hasSign n =>
    "invalid type: integer `" ++ toString n ++ "` as " ++ (if hasSign then "i128" else "u128") ++ expected
  | .byteArray => "invalid type: byte array" ++ expected
  | .wrapped => "invalid type: newtype struct" ++ expected
where
  expected : String := ", expected any configuration value"

end ReadFault

/-- The integer value of an unsigned number, which must fit in 64 bits with a sign. -/
def Value.ofUnsigned (n : Nat) : Except ReadFault Value :=
  match int64? n with
  | some i => .ok (.integer i)
  | none => .error (.outOfRange n)

namespace Event

mutual

/-- The value that events stand for, or the first fault. -/
def read : Event → Except ReadFault Value
  | .none => .ok .null
  | .unit => .ok .null
  | .boolean b => .ok (.boolean b)
  | .signed n => .ok (.integer n)
  | .unsigned n => Value.ofUnsigned n.toNat
  | .wide hasSign n => .error (.wideInteger hasSign n)
  | .float x => .ok (.float x)
  | .text s => .ok (.string s)
  | .bytes => .error .byteArray
  | .some inner => read inner
  | .wrapped _ => .error .wrapped
  | .sequence items => do return .sequence (← readItems items)
  | .mapping entries => readEntries [] entries
  | .tagged tag inner => do
    let _ ← read tag
    read inner
termination_by structural e => e

def readItems : List Event → Except ReadFault (List Value)
  | [] => .ok []
  | e :: es => do
    let v ← read e
    return v :: (← readItems es)
termination_by structural es => es

/-- The mapping that entries add up to, after those already in `m`. -/
def readEntries (m : Mapping) : List (Event × Event) → Except ReadFault Value
  | [] => .ok (.mapping m)
  | (k, v) :: es => do
    let key ← read k
    let value ← read v
    if m.standsForWhole key then return value
    else readEntries (m.insert key value) es
termination_by structural es => es

end

end Event

namespace Value

mutual

/-- The events that tell a value. -/
def events : Value → Event
  | .null => .unit
  | .boolean b => .boolean b
  | .integer n => .signed n
  | .float x => .float x
  | .string s => .text s
  | .sequence items => .sequence (itemEvents items)
  | .mapping entries => .mapping (entryEvents entries)
termination_by structural v => v

def itemEvents : List Value → List Event
  | [] => []
  | v :: vs => events v :: itemEvents vs
termination_by structural vs => vs

def entryEvents : List (Value × Value) → List (Event × Event)
  | [] => []
  | (k, v) :: es => (events k, events v) :: entryEvents es
termination_by structural es => es

end

end Value

end TypedConfig

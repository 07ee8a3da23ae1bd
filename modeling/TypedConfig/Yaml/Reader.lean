import TypedConfig.Failure
import TypedConfig.Yaml.Grammar
import TypedConfig.Yaml.Lexer

/-!
# Reading a value from YAML

The value is read from the parts of the document in order, and the first fault counts, be it in a value or in
the text. At an alias the part that it stands for is read again; how often that may happen depends on the
length of the document. A value is read by recursion on how many collections may still stand inside it; the
lists inside it by recursion on the number of parts.
-/
namespace TypedConfig.Yaml
open Binary (spanDigits splitSign)
open Text (hexDigit?)

/-!
## What plain scalars stand for

A plain scalar is null, a boolean, an integer, a floating-point number or a string. Integers may be written
in base two, eight, ten or sixteen; in base ten a zero in front makes a string.
-/

def isNull (s : String) : Bool := s == "~" || s == "null" || s == "Null" || s == "NULL"

def boolean? (s : String) : Option Bool :=
  if s = "true" ∨ s = "True" ∨ s = "TRUE" then some true
  else if s = "false" ∨ s = "False" ∨ s = "FALSE" then some false
  else none

/-- The natural that digits of a base stand for. -/
def naturalIn? (base : Nat) (ds : List Char) : Option Nat :=
  if ds.isEmpty then none
  else ds.foldlM (fun n d => (hexDigit? d).bind fun k => if k < base then some (base * n + k) else none) 0

/-- Whether digits follow a zero, which no number has in front of it. -/
def hasLeadingZero (cs : List Char) : Bool :=
  let (_, ds) := splitSign cs
  1 < ds.length && ds.head? == some '0' && ds.all Char.isDigit

/-- The natural that is written without a sign. -/
def natural? : List Char → Option Nat
  | '0' :: 'x' :: ds => naturalIn? 16 ds
  | '0' :: 'o' :: ds => naturalIn? 8 ds
  | '0' :: 'b' :: ds => naturalIn? 2 ds
  | ds => if hasLeadingZero ds then none else naturalIn? 10 ds

/-- The integer that a scalar stands for. Of integers that do not fit in 64 bits, those that fit in 128 are no
    values, and others are no integers. -/
def integer? (cs : List Char) : Option Event :=
  let (sign, ds) := splitSign cs
  match natural? ds with
  | none => none
  | some n =>
    if sign = some true then
      match int64? (-n) with
      | some i => some (.signed i)
      | none => if n ≤ Nat.pow 2 127 then some (.wide true (-n)) else none
    else if n < UInt64.size then some (.unsigned (UInt64.ofNat n))
    else if n < Nat.pow 2 128 then some (.wide false n)
    else none

/-- The floating-point number that a scalar stands for. A decimal must not be too large for one. -/
def float? (s : String) : Option Binary64 :=
  match s with
  | ".nan" | ".NaN" | ".NAN" => some .nan
  | ".inf" | ".Inf" | ".INF" | "+.inf" | "+.Inf" | "+.INF" => some (.infinity false)
  | "-.inf" | "-.Inf" | "-.INF" => some (.infinity true)
  | _ => (Binary64.ofChars? s.toList).filter (·.isFinite)

/-- What a plain scalar without a tag stands for. -/
def plainEvent (s : String) : Event :=
  if s.isEmpty || isNull s then .unit
  else
    match boolean? s, integer? s.toList with
    | some b, _ => .boolean b
    | none, some event => event
    | none, none =>
      match if hasLeadingZero s.toList then none else float? s with
      | some x => .float x
      | none => .text s

/-! ## The script of a document -/

/-- How many collections may stand inside each other. -/
def depthLimit : Nat := 128

/-- How often aliases may be followed for each part of a document. -/
def aliasesPerPart : Nat := 100

/-- A document that can be read at any place. -/
structure Script where
  parts : Array Part
  places : List (Nat × Nat)

def Script.ofDocument (d : Document) : Script := ⟨d.parts.reverse.toArray, d.places⟩

/-- Reading counts the aliases that are followed. -/
abbrev Reading (α : Type) := Nat → Except Malformed (α × Nat)

namespace Script

/-- The value of a scalar. A tag that belongs to the application says nothing. -/
def scalarValue (tag : Option Tag) (isPlain : Bool) (text : String) : Except Malformed Value :=
  let untagged : Event := if isPlain then plainEvent text else .text text
  match tag with
  | none => value untagged
  | some .own => value untagged
  | some .null => if isNull text then .ok .null else .error .grammar
  | some .boolean => (boolean? text).elim (.error .grammar) fun b => .ok (.boolean b)
  | some .integer => (integer? text.toList).elim (.error .grammar) value
  | some .float => (float? text).elim (.error .grammar) fun x => .ok (.float x)
  | some .other => .ok (.string text)
where
  value (event : Event) : Except Malformed Value := event.read.mapError .value

/-- Reads the elements of a sequence from the part after its start to the part after its end. -/
def items (s : Script) (node : Nat → Reading (Value × Nat)) : Nat → Nat → Reading (List Value × Nat)
  | 0, _, _ => .error .grammar
  | fuel + 1, at_, followed =>
    match s.parts[at_]? with
    | none => .error .grammar
    | some .sequenceEnd => .ok (([], at_ + 1), followed)
    | some _ => do
      let ((v, at_), followed) ← node at_ followed
      let ((vs, at_), followed) ← items s node fuel at_ followed
      return ((v :: vs, at_), followed)

/-- Reads the entries of a mapping from the part after its start, or after entries already in `m`, to the part
    after its end. -/
def entries (s : Script) (node : Nat → Reading (Value × Nat)) :
    Nat → Mapping → Nat → Reading (Value × Nat)
  | 0, _, _, _ => .error .grammar
  | fuel + 1, m, at_, followed =>
    match s.parts[at_]? with
    | none => .error .grammar
    | some .mappingEnd => .ok ((.mapping m, at_ + 1), followed)
    | some _ => do
      let ((k, at_), followed) ← node at_ followed
      let ((v, at_), followed) ← node at_ followed
      if m.standsForWhole k then
        if s.parts[at_]? = some .mappingEnd then return ((v, at_ + 1), followed) else throw .grammar
      else entries s node fuel (m.insert k v) at_ followed

/-- Reads the node at a part that is no alias. `inner` reads the nodes inside it, if there may be any. -/
def node (s : Script) (inner : Option (Nat → Reading (Value × Nat))) (at_ : Nat) :
    Reading (Value × Nat) := fun followed =>
  match s.parts[at_]?, inner with
  | some (.scalar tag isPlain text), _ => do
    let v ← scalarValue tag isPlain text
    return ((v, at_ + 1), followed)
  | some .sequenceStart, some inner => do
    let ((vs, at_), followed) ← s.items inner s.parts.size (at_ + 1) followed
    return ((.sequence vs, at_), followed)
  | some .mappingStart, some inner => s.entries inner s.parts.size [] (at_ + 1) followed
  | _, _ => .error .grammar

/-- Reads the node at a part, which may be an alias. -/
def nodeOrAlias (s : Script) (inner : Option (Nat → Reading (Value × Nat))) (at_ : Nat) :
    Reading (Value × Nat) := fun followed =>
  match s.parts[at_]? with
  | some (.alias number) =>
    match s.places.lookup number with
    | some place =>
      if aliasesPerPart * s.parts.size ≤ followed then .error .grammar
      else do
        let ((v, _), followed) ← s.node inner place (followed + 1)
        return ((v, at_ + 1), followed)
    | none => .error .grammar
  | _ => s.node inner at_ followed

/-- Reads the node at a part inside which collections may stand to a depth. -/
def nodeToDepth (s : Script) : Nat → Nat → Reading (Value × Nat)
  | 0 => s.nodeOrAlias none
  | depth + 1 => s.nodeOrAlias (some (s.nodeToDepth depth))

end Script

/-- The value of a document. A document without any part is null. -/
def Document.read (d : Document) : Except Malformed Value := do
  let s := Script.ofDocument d
  let ((v, _), _) ← s.nodeToDepth depthLimit 0 0
  return v

/-- The value that a YAML text stands for. -/
def read (text : String) : Except Malformed Value := do
  let (tokens, complete) := tokensOf text.toList
  let (document, complete) := documentOf tokens complete
  if document.parts.isEmpty && complete then return .null
  let v ← document.read
  if complete then return v else throw .grammar

end TypedConfig.Yaml

import TypedConfig.Toml.Scalar
import TypedConfig.Value.Event

/-!
# Reading a value from TOML

A document is read line by line: each line is empty, a header or an assignment. A value is read by recursion
on how many containers may still stand inside it; the lists inside it by recursion on the text.
-/
namespace TypedConfig.Toml
open Text (Parsed)

/-!
## Tables of a TOML document

A document is a table, and each of its lines adds to it. A header opens a table, or the next table of a
series; an assignment stores a value in the table that was opened last. Each table is given only once: what
a table may still take depends on how it came about (`Origin`).
-/

/-- How a table came about. -/
inductive Origin where
  /-- A header opened it. -/
  | header
  /-- A header of a table inside it made it. -/
  | implied
  /-- A dotted key of an assignment made it. -/
  | dotted
deriving DecidableEq, Repr

/-- What a table holds under a key. -/
inductive Node where
  /-- A value, which is complete. -/
  | value (event : Event)
  | table (origin : Origin) (entries : List (String × Node))
  /-- Tables under one header, of which only the last can still grow. -/
  | series (earlier : List (List (String × Node))) (last : List (String × Node))
deriving Inhabited

/-- Keys with what stands under them, in the order in which values or headers gave them. -/
abbrev Table := List (String × Node)

namespace Table

/-- Puts another node under a key, made from the one that is there, if there is one and if that can be. -/
def alter (key : String) (change : Option Node → Option Node) : Table → Option Table
  | [] => do return [(key, ← change none)]
  | (k, node) :: rest =>
    if k = key then do return (k, ← change (some node)) :: rest
    else do return (k, node) :: (← alter key change rest)

/-- Changes the table at the end of a path. A table that is missing on the way is made; a series is passed
    through its last table. -/
def within (change : Table → Option Table) : List String → Table → Option Table
  | [], t => change t
  | key :: path, t => t.alter key fun
    | none => do return .table .implied (← within change path [])
    | some (.table origin entries) => do return .table origin (← within change path entries)
    | some (.series earlier last) => do return .series earlier (← within change path last)
    | some (.value _) => none

/-- Opens a table under a key, which has none or an implied one. The key stands last from then on. -/
def opened (key : String) (t : Table) : Option Table :=
  match t.lookup key with
  | none => some (t ++ [(key, .table .header [])])
  | some (.table .implied entries) => some (t.filter (·.1 != key) ++ [(key, .table .header entries)])
  | some _ => none

/-- Opens the next table of the series under a key. -/
def extended (key : String) (t : Table) : Option Table :=
  t.alter key fun
    | none => some (.series [] [])
    | some (.series earlier last) => some (.series (earlier ++ [last]) [])
    | some _ => none

/-- Stores a value under a key that is free, at the end of a path of dotted keys. Tables that headers opened
    take nothing from dotted keys, and the last table on the path is one that dotted keys made. -/
def assigned (key : String) (event : Event) : List String → Table → Option Table
  | [], t => t.alter key fun
    | none => some (.value event)
    | some _ => none
  | step :: path, t => t.alter step fun
    | none => do return .table .dotted (← assigned key event path [])
    | some (.table origin entries) =>
      if origin = .dotted ∨ (origin = .implied ∧ path ≠ []) then do
        return .table origin (← assigned key event path entries)
      else none
    | some (.series earlier last) =>
      if path = [] then none else do return .series earlier (← assigned key event path last)
    | some (.value _) => none

mutual

/-- The events that tell a table. -/
def entryEvents : List (String × Node) → List (Event × Event)
  | [] => []
  | (key, node) :: rest => (.text key, nodeEvent node) :: entryEvents rest
termination_by structural t => t

def nodeEvent : Node → Event
  | .value event => event
  | .table _ entries => .mapping (entryEvents entries)
  | .series earlier last => .sequence (seriesEvents earlier ++ [.mapping (entryEvents last)])
termination_by structural node => node

def seriesEvents : List (List (String × Node)) → List Event
  | [] => []
  | t :: ts => .mapping (entryEvents t) :: seriesEvents ts
termination_by structural ts => ts

end

/-- The event that tells a table. -/
def event (t : Table) : Event := .mapping (entryEvents t)

end Table

/-! ## Values and lines -/

/-- How many arrays and tables may stand inside each other in a value. -/
def depthLimit : Nat := 79

/-- How many parts a key may have. -/
def keyLimit : Nat := 79

/-! ### Keys -/

/-- A key taken apart at its dots: the tables it leads through, and the name of its entry. -/
structure Key where
  path : List String
  name : String

/-- Whether a character may stand in a key without quotes. -/
def isBare (c : Char) : Bool := c.isAlphanum || c = '-' || c = '_'

/-- Reads a part of a key. -/
def keyPart? (cs : List Char) : Option (Parsed String) :=
  match shortString? cs with
  | some (name, rest) => some (String.ofList name, rest)
  | none =>
    let (name, rest) := cs.span isBare
    if name.isEmpty then none else some (String.ofList name, rest)

/-- Reads the parts of a key, with blanks around each of them. There are at most as many as the first argument
    says. -/
def keyParts? : Nat → List Char → Option (Parsed Key)
  | 0, _ => none
  | limit + 1, cs => do
    let (name, rest) ← keyPart? (skipBlanks cs)
    match skipBlanks rest with
    | '.' :: more =>
      let (key, rest) ← keyParts? limit more
      return ({ key with path := name :: key.path }, rest)
    | rest => return (⟨[], name⟩, rest)

def key? (cs : List Char) : Option (Parsed Key) := keyParts? keyLimit cs

/-! ### Values -/

/-- Reads a word that stands for a value. -/
def word? (name : String) (event : Event) (cs : List Char) : Option (Parsed Event) :=
  if name.toList.isPrefixOf cs then some (event, cs.drop name.length) else none

/-- The event that hands over a date or a time. -/
def DateTime.event (moment : DateTime) : Event := .mapping [(.text dateTimeMark, .text moment.text)]

/-- Reads a date, a time or a number. -/
def digitsFirst? (cs : List Char) : Option (Parsed Event) :=
  match dateTime? cs with
  | some (moment, rest) => some (moment.event, rest)
  | none => number? cs

/-- Reads a value that contains no other. -/
def scalar? (cs : List Char) : Option (Parsed Event) :=
  match cs with
  | 't' :: _ => word? "true" (.boolean true) cs
  | 'f' :: _ => word? "false" (.boolean false) cs
  | '\x22' :: _ => (string? cs).map fun (s, rest) => (.text (String.ofList s), rest)
  | '\x27' :: _ => (string? cs).map fun (s, rest) => (.text (String.ofList s), rest)
  | _ => digitsFirst? cs

/-- Reads the elements of an array up to its end. A comma may stand after the last. -/
def items? (item : List Char → Option (Parsed Event)) : Nat → List Char → Option (Parsed (List Event))
  | 0, _ => none
  | fuel + 1, cs =>
    match skipLines cs.length cs with
    | ']' :: rest => some ([], rest)
    | start => do
      let (event, rest) ← item start
      match skipLines rest.length rest with
      | ',' :: more =>
        let (events, rest) ← items? item fuel more
        return (event :: events, rest)
      | ']' :: more => return ([event], more)
      | _ => none

/-- Reads an assignment up to the end of its value. -/
def assignment? (item : List Char → Option (Parsed Event)) (cs : List Char) : Option (Parsed (Key × Event)) := do
  let (key, rest) ← key? cs
  let (event, rest) ← item (skipBlanks (← after? '=' rest))
  return ((key, event), rest)

/-- Reads the assignments of a table on one line up to its end, after those already in `t`. -/
def members? (item : List Char → Option (Parsed Event)) : Nat → Table → List Char → Option (Parsed Event)
  | 0, _, _ => none
  | fuel + 1, t, cs => do
    let ((key, event), rest) ← assignment? item cs
    let t ← t.assigned key.name event key.path
    match skipBlanks rest with
    | ',' :: more => members? item fuel t more
    | '\x7d' :: more => return (t.event, more)
    | _ => none

/-- Reads a value inside which containers may stand to a depth. -/
def value? : Nat → List Char → Option (Parsed Event)
  | 0, cs =>
    match cs with
    | '[' :: _ => none
    | '\x7b' :: _ => none
    | _ => scalar? cs
  | depth + 1, cs =>
    match cs with
    | '[' :: rest => (items? (value? depth) rest.length rest).map fun (events, rest) => (.sequence events, rest)
    | '\x7b' :: rest =>
      match skipBlanks rest with
      | '\x7d' :: more => some (.mapping [], more)
      | _ => members? (value? depth) rest.length [] rest
    | _ => scalar? cs

/-! ### Documents -/

/-- What the lines read so far add up to. -/
structure Document where
  root : Table
  /-- Where the table is that was opened last. -/
  place : List String

/-- Reads a key between brackets and the rest of its line. The closing brackets are as many as the opening
    ones. -/
def header? (brackets : Nat) (cs : List Char) : Option (Parsed Key) := do
  let (key, rest) ← key? cs
  if (List.replicate brackets ']').isPrefixOf rest then return (key, ← endLine? (rest.drop brackets)) else none

/-- The document after a header. -/
def Document.enter (d : Document) (key : Key) (open? : String → Table → Option Table) : Option Document := do
  return ⟨← d.root.within (open? key.name) key.path, key.path ++ [key.name]⟩

/-- The document after an assignment. -/
def Document.assign (d : Document) (key : Key) (event : Event) : Option Document := do
  return { d with root := ← d.root.within (Table.assigned key.name event key.path) d.place }

/-- The document after the line at the head of a text, and the text after that line. -/
def line? (d : Document) (cs : List Char) : Option (Parsed Document) :=
  match skipComment cs with
  | '[' :: '[' :: rest => do
    let (key, rest) ← header? 2 rest
    return (← d.enter key Table.extended, rest)
  | '[' :: rest => do
    let (key, rest) ← header? 1 rest
    return (← d.enter key Table.opened, rest)
  | start =>
    match endLine? start with
    | some rest => some (d, rest)
    | none => do
      let ((key, event), rest) ← assignment? (value? depthLimit) start
      return (← d.assign key event, ← endLine? rest)

/-- The document after all lines of a text. `fuel` is at least their number. -/
def lines? : Nat → Document → List Char → Option Document
  | _, d, [] => some d
  | 0, _, _ => none
  | fuel + 1, d, cs => do
    let (d, rest) ← line? d cs
    lines? fuel d rest

/-- The event that a TOML text tells. A byte order mark may stand first. -/
def event? (text : String) : Option Event := do
  let cs := match text.toList with
    | '\uFEFF' :: rest => rest
    | cs => cs
  let d ← lines? cs.length ⟨[], []⟩ cs
  return d.root.event

end TypedConfig.Toml

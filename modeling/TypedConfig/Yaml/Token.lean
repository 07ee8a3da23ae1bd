import TypedConfig.Yaml.Scalar

/-!
# Tokens of YAML

Besides the marks and scalars of the text, tokens tell where blocks start and end and where keys start, which
the text says by indentation and by colons that come later.
-/
namespace TypedConfig.Yaml
open Text (Parsed hexNumber?)

/-!
## Positions in a text

Where a token starts decides which block it belongs to, and how far a key may reach.
-/

/-- A place in a text: how many octets of UTF-8 stand before it, how many line breaks, and how many characters
    on its own line. -/
structure Position where
  octets : Nat
  line : Nat
  column : Nat
deriving DecidableEq, Repr

namespace Position

/-- The start of a text. -/
def start : Position := ⟨0, 0, 0⟩

/-- The position after a character. Of a carriage return and a line feed, the line feed ends the line. -/
def pass (p : Position) (c : Char) (rest : List Char) : Position :=
  if isBreak c ∧ ¬(c = '\r' ∧ rest.head? = some '\n') then ⟨p.octets + c.utf8Size, p.line + 1, 0⟩
  else ⟨p.octets + c.utf8Size, p.line, p.column + 1⟩

/-- The position after so many characters of a text. -/
def after (p : Position) : Nat → List Char → Position
  | count + 1, c :: cs => after (p.pass c cs) count cs
  | _, _ => p

end Position

/-! ## Tokens -/

inductive Token where
  /-- The version of the language that a document asks for. -/
  | version (major minor : Nat)
  /-- What the handle of tags stands for. -/
  | handle (name expansion : String)
  | documentStart
  | documentEnd
  | textEnd
  | blockSequence
  | blockMapping
  | blockEnd
  | flowSequence
  | flowSequenceEnd
  | flowMapping
  | flowMappingEnd
  /-- An element of a sequence in a block. -/
  | item
  | comma
  | key
  | value
  | anchor (name : String)
  | alias (name : String)
  /-- A tag, whose handle is empty if the rest is all of it. -/
  | tag (handle rest : String)
  | scalar (isPlain : Bool) (text : String)
deriving DecidableEq, Repr

/-! ## Tags and directives -/

/-- Whether a character may stand in a tag. Commas and square brackets only may between angle brackets. -/
def isTagChar (enclosed : Bool) (c : Char) : Bool :=
  isName c || [';', '/', '?', ':', '@', '&', '=', '+', '$', '.', '!', '~', '*', '\x27', '(', ')'].contains c
    || (enclosed && [',', '[', ']'].contains c)

/-- Reads an escaped octet. -/
def octet? : List Char → Option (Parsed Nat)
  | '%' :: rest => hexNumber? 2 rest
  | _ => none

/-- How many octets after the first a character in UTF-8 has. -/
def continuations? (first : Nat) : Option Nat :=
  if first < 0x80 then some 0
  else if first < 0xC0 then none
  else if first < 0xE0 then some 1
  else if first < 0xF0 then some 2
  else if first < 0xF8 then some 3
  else none

/-- Reads so many escaped octets that continue a character. -/
def continuing? : Nat → List Char → Option (Parsed (List Char))
  | 0, cs => some ([], cs)
  | count + 1, cs => do
    let (n, rest) ← octet? cs
    if 0x80 ≤ n ∧ n < 0xC0 then
      let (octets, rest) ← continuing? count rest
      return (Char.ofNat n :: octets, rest)
    else none

/-- Reads the escaped octets of a character, each of which is kept as the character of its number. -/
def escapedOctets? (cs : List Char) : Option (Parsed (List Char)) := do
  let (n, rest) ← octet? cs
  let (octets, rest) ← continuing? (← continuations? n) rest
  return (Char.ofNat n :: octets, rest)

/-- Reads characters of a tag as far as they go. `fuel` is at least the length of the text. -/
def tagChars? (enclosed : Bool) : Nat → List Char → Option (Parsed (List Char))
  | _, [] => some ([], [])
  | 0, _ => none
  | fuel + 1, c :: cs =>
    if c = '%' then do
      let (octets, rest) ← escapedOctets? (c :: cs)
      let (more, rest) ← tagChars? enclosed fuel rest
      return (octets ++ more, rest)
    else if isTagChar enclosed c then do
      let (more, rest) ← tagChars? enclosed fuel cs
      return (c :: more, rest)
    else some ([], c :: cs)

/-- Reads characters of a tag, of which there is at least one. -/
def someTagChars? (enclosed : Bool) (cs : List Char) : Option (Parsed (List Char)) := do
  let (text, rest) ← tagChars? enclosed cs.length cs
  if text.isEmpty then none else return (text, rest)

/-- The text of a tag or of a part of it, which ends before the first escaped NUL. -/
def tagText (cs : List Char) : String := String.ofList (cs.takeWhile (· != '\x00'))

/-- Reads a tag between angle brackets, after the first of them. -/
def enclosedTag? (cs : List Char) : Option (Parsed Token) := do
  let (text, rest) ← someTagChars? true cs
  match rest with
  | '>' :: rest => return (.tag "" (tagText text), rest)
  | _ => none

/-- Reads a tag without angle brackets after its exclamation mark: a handle and the rest, the rest alone, or
    nothing more. -/
def shorthandTag? (cs : List Char) : Option (Parsed Token) := do
  let (name, rest) := cs.span isName
  match rest with
  | '!' :: rest => do
    let (text, rest) ← someTagChars? false rest
    return (.tag (String.ofList ('!' :: name ++ ['!'])) (tagText text), rest)
  | _ => do
    let (text, rest) ← tagChars? false cs.length cs
    let text := tagText text
    if text.isEmpty then return (.tag "" "!", rest) else return (.tag "!" text, rest)

/-- Reads a tag after its exclamation mark. A blank follows it, or a comma inside brackets. -/
def tag? (inFlow : Bool) (cs : List Char) : Option (Parsed Token) := do
  let (token, rest) ← match cs with
    | '<' :: cs => enclosedTag? cs
    | _ => shorthandTag? cs
  if startsSpace rest ∨ (inFlow ∧ rest.head? = some ',') then return (token, rest) else none

/-- Reads the name of an anchor or of an alias, after its first character. -/
def anchorName? (cs : List Char) : Option (Parsed String) :=
  let (name, rest) := cs.span isName
  let ends := startsSpace rest || rest.head?.any (['?', ':', ',', ']', '\x7d', '%', '@', '\x60'].contains ·)
  if name.isEmpty || !ends then none else some (String.ofList name, rest)

/-! ### Directives -/

/-- Reads a number of a version, which has at most nine digits. -/
def versionNumber? (cs : List Char) : Option (Parsed Nat) :=
  let (ds, rest) := cs.span Char.isDigit
  if ds.isEmpty ∨ 9 < ds.length then none
  else some (ds.foldl (fun n d => 10 * n + (d.toNat - '0'.toNat)) 0, rest)

/-- Reads what follows the name of a version directive. -/
def version? (cs : List Char) : Option (Parsed Token) := do
  let (major, rest) ← versionNumber? (skipBlanks cs)
  match rest with
  | '.' :: rest => do
    let (minor, rest) ← versionNumber? rest
    return (.version major minor, rest)
  | _ => none

/-- Reads the handle that a directive defines: one exclamation mark, or a name between two. -/
def handleName? : List Char → Option (Parsed String)
  | '!' :: cs =>
    let (name, rest) := cs.span isName
    match rest with
    | '!' :: rest => some (String.ofList ('!' :: name ++ ['!']), rest)
    | _ => if name.isEmpty then some ("!", rest) else none
  | _ => none

/-- Reads what follows the name of a tag directive. -/
def handle? (cs : List Char) : Option (Parsed Token) := do
  let (name, rest) ← handleName? (skipBlanks cs)
  if rest.head?.any isBlank then
    let (expansion, rest) ← someTagChars? true (skipBlanks rest)
    if startsSpace rest then return (.handle name (tagText expansion), rest) else none
  else none

/-- Reads a directive after its percent sign, up to the end of its line. -/
def directive? (cs : List Char) : Option (Parsed Token) := do
  let (name, rest) := cs.span isName
  if !startsSpace rest then none
  let (token, rest) ←
    if name = "YAML".toList then version? rest
    else if name = "TAG".toList then handle? rest
    else none
  return (token, ← endLine? rest)

end TypedConfig.Yaml

import TypedConfig.Text

/-!
# Scalars in YAML
-/
namespace TypedConfig.Yaml
open Text (Parsed hexChar?)

/-! ## Characters in YAML -/

/-- Whether a character may stand in a document at all: all but most controls, and no code point that stands
    for no character at the end of the first plane. -/
def isReadable (c : Char) : Bool :=
  let n := c.toNat
  n = 0x9 || n = 0xA || n = 0xD || n = 0x85
    || (0x20 ≤ n && n ≤ 0x7E) || (0xA0 ≤ n && n ≤ 0xFFFD) || 0x10000 ≤ n

/-- A space or a tab. -/
def isBlank (c : Char) : Bool := c = ' ' || c = '\t'

/-- A character that ends a line. -/
def isBreak (c : Char) : Bool := c = '\n' || c = '\r' || c = '\x85' || c = '\u2028' || c = '\u2029'

/-- A blank or a character that ends a line. -/
def isSpace (c : Char) : Bool := isBlank c || isBreak c

/-- A character of a name: a letter or a digit of ASCII, a hyphen or an underscore. -/
def isName (c : Char) : Bool := c.isAlphanum || c = '-' || c = '_'

/-- A character that has a meaning between the brackets of a collection. -/
def isFlowIndicator (c : Char) : Bool := c = ',' || c = '[' || c = ']' || c = '\x7b' || c = '\x7d'

/-- Whether a text is at its end or goes on with a blank or a line break. -/
def startsSpace (cs : List Char) : Bool := cs.head?.all isSpace

/-- Whether a text is at its end or at the end of a line. -/
def startsBreak (cs : List Char) : Bool := cs.head?.all isBreak

/-- The line break at the head of a text, in the form in which scalars keep it, and the text after it. All
    breaks but two are kept as line feeds. -/
def takeBreak? : List Char → Option (Text.Parsed Char)
  | '\r' :: '\n' :: rest => some ('\n', rest)
  | c :: rest =>
    if c = '\u2028' ∨ c = '\u2029' then some (c, rest)
    else if isBreak c then some ('\n', rest)
    else none
  | [] => none

/-- Whether one of the marks stands at the head of a text that separate documents from each other. -/
def startsMark (mark : Char) (cs : List Char) : Bool :=
  [mark, mark, mark].isPrefixOf cs && startsSpace (cs.drop 3)

/-- Whether a line that starts with this text separates documents. -/
def startsDocumentMark (cs : List Char) : Bool := startsMark '-' cs || startsMark '.' cs

/-- The text without the blanks at its head. -/
def skipBlanks (cs : List Char) : List Char := cs.dropWhile isBlank

/-- The text after the end of a line that has nothing more to say than a comment. -/
def endLine? (cs : List Char) : Option (List Char) :=
  let rest := skipBlanks cs
  let rest := if rest.head? = some '#' then rest.dropWhile (!isBreak ·) else rest
  match takeBreak? rest with
  | some (_, rest) => some rest
  | none => if rest.isEmpty then some [] else none

/-!
## Gaps inside scalars

A gap is a stretch of blanks and line breaks. On one line it is kept as it is. Over several lines it is
folded: blanks around line breaks are dropped, a single line feed becomes a space, and of several line
breaks the first is dropped, if it is a line feed.
-/

/-- The gap at the head of a text and the rest of the text. -/
def spanGap (cs : List Char) : Text.Parsed (List Char) := cs.span isSpace

/-- The line breaks of a gap, in the form in which scalars keep them. -/
def breaksOf : List Char → List Char
  | [] => []
  | '\r' :: '\n' :: cs => '\n' :: breaksOf cs
  | c :: cs =>
    if c = '\u2028' ∨ c = '\u2029' then c :: breaksOf cs
    else if isBreak c then '\n' :: breaksOf cs
    else breaksOf cs

/-- What line breaks in a row become. -/
def folded : List Char → List Char
  | ['\n'] => [' ']
  | '\n' :: more => more
  | breaks => breaks

/-- What a gap adds to its scalar. -/
def gapText (gap : List Char) : List Char :=
  if gap.any isBreak then folded (breaksOf gap) else gap

/-- Whether what follows a gap stands at the start of a line. -/
def endsLine (gap : List Char) : Bool := gap.getLast?.any isBreak

/-- The column of what follows a gap that spans lines. -/
def columnAfter (gap : List Char) : Nat := (gap.reverse.takeWhile (!isBreak ·)).length

/-- Whether a tab stands before a column on a line that starts in the gap. The first argument is the column,
    once such a line has started. -/
def hasTabBefore (column : Nat) : Option Nat → List Char → Bool
  | _, [] => false
  | here, c :: cs =>
    if isBreak c then hasTabBefore column (some 0) cs
    else match here with
      | none => hasTabBefore column none cs
      | some k => (c = '\t' && k < column) || hasTabBefore column (some (k + 1)) cs

/-!
## Plain scalars

A scalar without quotes ends before a comment, a colon with a blank after it, a mark between documents, a
line that is not indented enough, and inside brackets before any character that means something there.
-/

/-- A character that starts a token of another kind, or none at all. -/
def isIndicator (c : Char) : Bool :=
  isFlowIndicator c || ['#', '&', '*', '!', '|', '>', '\x27', '\x22', '%', '@', '\x60'].contains c

/-- Whether a plain scalar may start with this text. -/
def startsPlain (inFlow : Bool) : List Char → Bool
  | [] => false
  | c :: rest =>
    if c = '-' then !rest.head?.any isBlank
    else if c = '?' ∨ c = ':' then !inFlow && !startsSpace rest
    else !isSpace c && !isIndicator c

/-- Whether a character that is no gap ends a plain scalar. -/
def endsPlain (inFlow : Bool) : List Char → Bool
  | [] => true
  | c :: rest => (c = ':' && startsSpace rest) || (inFlow && isFlowIndicator c)

/-- Whether a colon inside brackets stands so close to the next character that it could mean two things. -/
def hasUnclearColon (inFlow : Bool) : List Char → Bool
  | ':' :: c :: _ => inFlow && (isFlowIndicator c || c = '?')
  | _ => false

/-- A plain scalar that was read. -/
structure Plain where
  text : List Char
  /-- Whether line breaks were passed after the last character. -/
  endsLine : Bool
  rest : List Char

/-- Whether a plain scalar ends with a gap. What follows on another line must stand at `indent` or after it,
    unless brackets enclose it. -/
def endsAtGap (inFlow : Bool) (indent : Nat) (gap rest : List Char) : Bool :=
  endsPlain inFlow rest || rest.head? == some '#' || (endsLine gap && startsDocumentMark rest)
    || (!inFlow && gap.any isBreak && columnAfter gap < indent)

/-- Reads a plain scalar from a text that one may start with. `fuel` is at least the length of the text. -/
def plain? (inFlow : Bool) (indent : Nat) : Nat → List Char → Option Plain
  | _, [] => some ⟨[], false, []⟩
  | 0, _ => none
  | fuel + 1, c :: cs =>
    if isSpace c then
      let (gap, rest) := spanGap (c :: cs)
      if hasTabBefore indent none gap then none
      else if endsAtGap inFlow indent gap rest then some ⟨[], gap.any isBreak, rest⟩
      else do
        let scalar ← plain? inFlow indent fuel rest
        return { scalar with text := gapText gap ++ scalar.text }
    else if hasUnclearColon inFlow (c :: cs) then none
    else if endsPlain inFlow (c :: cs) then some ⟨[], false, c :: cs⟩
    else do
      let scalar ← plain? inFlow indent fuel cs
      return { scalar with text := c :: scalar.text }

/-!
## Quoted scalars

Between single quotes a quote is written twice, and there are no escapes; between double quotes a backslash
starts an escape, and hides a line break together with the blanks after it. No line of a quoted scalar may
look like a mark between documents.
-/

/-- The character of an escape, after its backslash. -/
def escape? : List Char → Option (Parsed Char)
  | [] => none
  | c :: rest =>
    match c with
    | '0' => some ('\x00', rest)
    | 'a' => some ('\x07', rest)
    | 'b' => some ('\x08', rest)
    | 't' => some ('\t', rest)
    | '\t' => some ('\t', rest)
    | 'n' => some ('\n', rest)
    | 'v' => some ('\x0b', rest)
    | 'f' => some ('\x0c', rest)
    | 'r' => some ('\r', rest)
    | 'e' => some ('\x1b', rest)
    | ' ' => some (' ', rest)
    | '\x22' => some ('\x22', rest)
    | '/' => some ('/', rest)
    | '\\' => some ('\\', rest)
    | 'N' => some ('\x85', rest)
    | '_' => some ('\xa0', rest)
    | 'L' => some ('\u2028', rest)
    | 'P' => some ('\u2029', rest)
    | 'x' => hexChar? 2 rest
    | 'u' => hexChar? 4 rest
    | 'U' => hexChar? 8 rest
    | _ => none

/-- Puts characters in front of those that were read. -/
def prepend (front : List Char) (parsed : Option (Parsed (List Char))) : Option (Parsed (List Char)) :=
  parsed.map fun (cs, rest) => (front ++ cs, rest)

/-- The text after a gap, unless a mark between documents stands there. -/
def afterGap? (gap rest : List Char) : Option (List Char) :=
  if endsLine gap ∧ startsDocumentMark rest then none else some rest

/-- Reads a scalar between single quotes after the first of them. `fuel` is more than the length of the
    text. -/
def singleQuoted : Nat → List Char → Option (Parsed (List Char))
  | 0, _ => none
  | _ + 1, [] => none
  | fuel + 1, c :: cs =>
    if isSpace c then do
      let (gap, rest) := spanGap (c :: cs)
      prepend (gapText gap) (singleQuoted fuel (← afterGap? gap rest))
    else if c = '\x27' then
      match cs with
      | '\x27' :: rest => prepend ['\x27'] (singleQuoted fuel rest)
      | _ => some ([], cs)
    else prepend [c] (singleQuoted fuel cs)

/-- Reads a scalar between double quotes after the first of them. `fuel` is more than the length of the
    text. -/
def doubleQuoted : Nat → List Char → Option (Parsed (List Char))
  | 0, _ => none
  | _ + 1, [] => none
  | fuel + 1, c :: cs =>
    if isSpace c then do
      let (gap, rest) := spanGap (c :: cs)
      prepend (gapText gap) (doubleQuoted fuel (← afterGap? gap rest))
    else if c = '\x22' then some ([], cs)
    else if c = '\\' then
      if cs.head?.any isBreak then do
        let (gap, rest) := spanGap cs
        prepend ((breaksOf gap).drop 1) (doubleQuoted fuel (← afterGap? gap rest))
      else do
        let (d, rest) ← escape? cs
        prepend [d] (doubleQuoted fuel rest)
    else prepend [c] (doubleQuoted fuel cs)

/-- Reads a scalar between quotes. -/
def quoted? : List Char → Option (Parsed (List Char))
  | '\x27' :: rest => singleQuoted (rest.length + 1) rest
  | '\x22' :: rest => doubleQuoted (rest.length + 1) rest
  | _ => none

/-!
## Block scalars

A block scalar is made of the lines that are indented deeply enough below its header. Literal scalars keep
their line breaks; folded ones join two lines with a space, unless one of them starts with a blank. The
header tells what becomes of the line breaks at the end.
-/

/-- Which of the line breaks at the end of a block scalar are kept. -/
inductive Chomping where
  | strip
  /-- The first is kept. -/
  | clip
  | keep
deriving DecidableEq, Repr

/-- What a header says after its first character. -/
structure BlockHeader where
  chomping : Chomping
  /-- How much deeper than its parent the scalar stands, if that is said. -/
  depth : Option Nat
deriving Repr

/-- Reads a sign that tells the chomping, if one is there. -/
def chomping : List Char → Option Chomping × List Char
  | '+' :: rest => (some .keep, rest)
  | '-' :: rest => (some .strip, rest)
  | cs => (none, cs)

/-- Reads a digit that tells the depth, if one is there; zero is no depth. -/
def depth? : List Char → Option (Parsed (Option Nat))
  | c :: rest =>
    if c = '0' then none
    else if c.isDigit then some (some (c.toNat - '0'.toNat), rest)
    else some (none, c :: rest)
  | [] => some (none, [])

/-- Reads a header up to the end of its line. Chomping and depth stand in any order. -/
def blockHeader? (cs : List Char) : Option (Parsed BlockHeader) := do
  let (first, rest) := chomping cs
  let (depth, rest) ← depth? rest
  let (second, rest) := if first.isNone && depth.isSome then chomping rest else (none, rest)
  let rest ← endLine? rest
  return (⟨(first <|> second).getD .clip, depth⟩, rest)

/-- Lines without content: their breaks, the column of what follows, and the text from there. -/
structure EmptyLines where
  breaks : List Char
  column : Nat
  rest : List Char

/-- Reads lines without content before a scalar whose indent is known. No tab may stand before the indent.
    `fuel` is more than the number of lines. -/
def emptyLines? (indent : Nat) : Nat → List Char → Option EmptyLines
  | 0, _ => none
  | fuel + 1, cs =>
    let column := min indent (cs.takeWhile (· == ' ')).length
    let rest := cs.drop column
    if column < indent ∧ rest.head? = some '\t' then none
    else match takeBreak? rest with
      | some (b, rest) => do
        let lines ← emptyLines? indent fuel rest
        return { lines with breaks := b :: lines.breaks }
      | none => some ⟨[], column, rest⟩

/-- Reads lines without content before a scalar whose indent is that of its first line, but at least `least`
    and the width of the lines read before. -/
def firstLines? (least : Nat) : Nat → List Char → Option (Nat × EmptyLines)
  | 0, _ => none
  | fuel + 1, cs =>
    let column := (cs.takeWhile (· == ' ')).length
    let rest := cs.drop column
    let indent := max least column
    if rest.head? = some '\t' then none
    else match takeBreak? rest with
      | some (b, rest) => do
        let (indent, lines) ← firstLines? indent fuel rest
        return (indent, { lines with breaks := b :: lines.breaks })
      | none => some (indent, ⟨[], column, rest⟩)

/-- The lines of a block scalar: their text up to the last, and what follows it. -/
structure BlockLines where
  text : List Char
  /-- The break that ends the last line, if any does. -/
  lastBreak : List Char
  /-- The breaks of the lines without content after the last line. -/
  breaks : List Char
  rest : List Char

/-- What a line break between two lines becomes, when there are breaks of empty lines after it. -/
def joint (isFolded : Bool) (lineBreak breaks : List Char) (besideBlank : Bool) : List Char :=
  if isFolded ∧ lineBreak = ['\n'] ∧ ¬besideBlank then (if breaks.isEmpty then [' '] else []) else lineBreak

/-- Reads the lines of a block scalar. The arguments tell about the line before: the break that ended it, and
    whether it starts with a blank. `fuel` is more than the number of lines. -/
def blockLines? (isFolded : Bool) (indent : Nat) : Nat → List Char → Bool → EmptyLines → Option BlockLines
  | 0, _, _, _ => none
  | fuel + 1, lineBreak, afterBlank, ⟨breaks, column, cs⟩ =>
    if column ≠ indent ∨ cs.isEmpty then some ⟨[], lineBreak, breaks, cs⟩
    else do
      let atBlank := cs.head?.any isBlank
      let (line, rest) := cs.span (!isBreak ·)
      let (nextBreak, rest) := match takeBreak? rest with
        | some (b, rest) => ([b], rest)
        | none => ([], rest)
      let lines ← blockLines? isFolded indent fuel nextBreak atBlank (← emptyLines? indent (rest.length + 1) rest)
      let text := joint isFolded lineBreak breaks (afterBlank || atBlank) ++ breaks ++ line ++ lines.text
      return { lines with text := text }

/-- Reads a block scalar after its first character. `parent` is the column of the collection that it stands
    in, if it stands in one. -/
def block? (isFolded : Bool) (parent : Option Nat) (cs : List Char) : Option (Parsed (List Char)) := do
  let (header, rest) ← blockHeader? cs
  let fuel := rest.length + 1
  let (indent, lines) ← match header.depth with
    | some depth => do
      let indent := parent.getD 0 + depth
      pure (indent, ← emptyLines? indent fuel rest)
    | none => firstLines? ((parent.map (· + 1)).getD 1) fuel rest
  let lines ← blockLines? isFolded indent fuel [] false lines
  let tail := match header.chomping with
    | .strip => []
    | .clip => lines.lastBreak
    | .keep => lines.lastBreak ++ lines.breaks
  return (lines.text ++ tail, lines.rest)

end TypedConfig.Yaml

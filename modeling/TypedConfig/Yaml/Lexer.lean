import TypedConfig.Yaml.Token

/-!
# Tokens of a text

Only the colon after a key tells that it was one. So wherever a key may start, the place is remembered as a
candidate, and the tokens that say that a key starts there are put in when the colon comes. A candidate
reaches at most over one line and 1024 octets of UTF-8; one that stands where only a key can stand has to become
one.

Outside of brackets, blocks open where a token stands deeper than the block around it, and end where one
stands less deep.
-/
namespace TypedConfig.Yaml
open Text (Parsed)

/-!
## Portions of a text

A text is taken in portions, each as large as may be without cutting a character in two, and a portion is
searched for characters that may not stand in a document before any of it is read. So faults in the portions
before come first.
-/

/-- How many octets of UTF-8 a portion has at most. -/
def portionSize : Nat := 16384

/-- The portions of a text before the first that has a character that may not stand in a document, and whether
    there is one. `latest` is the present portion so far, the latest character first, and `room` what it may
    still take. -/
def readablePart (latest : List Char) (room : Nat) : List Char → List Char × Bool
  | [] => (latest.reverse, false)
  | c :: cs =>
    if !isReadable c then (if room < c.utf8Size then (latest.reverse, true) else ([], true))
    else if room < c.utf8Size then
      let (part, hasMore) := readablePart [c] (portionSize - c.utf8Size) cs
      (latest.reverse ++ part, hasMore)
    else readablePart (c :: latest) (room - c.utf8Size) cs

/-! ## The lexer -/

/-- A place where a key may start. -/
structure Candidate where
  /-- How many tokens stand before it. -/
  number : Nat
  position : Position
  /-- Whether nothing but a key can stand there. -/
  required : Bool

/-- Whether a candidate can no longer be reached by a colon at a position. -/
def Candidate.isStale (k : Candidate) (p : Position) : Bool :=
  k.position.line < p.line || k.position.octets + 1024 < p.octets

/-- What has been read of a text. -/
structure Lexer where
  rest : List Char
  /-- How many characters the rest has. -/
  left : Nat
  position : Position
  /-- The tokens so far, the latest first. -/
  tokens : List Token
  /-- How many tokens there are. -/
  count : Nat
  /-- The columns of the open blocks, the innermost first. -/
  blocks : List Nat
  /-- The candidate between the innermost brackets, or in the block if there are none. -/
  candidate : Option Candidate
  /-- The candidates further out, one for each open bracket. -/
  outer : List (Option Candidate)
  /-- Whether a key may start here. -/
  keyAllowed : Bool

namespace Lexer

/-- The start of a text. -/
def ofText (text : List Char) : Lexer := ⟨text, text.length, .start, [], 0, [], none, [], true⟩

/-- Whether the place is between brackets. -/
def inFlow (l : Lexer) : Bool := !l.outer.isEmpty

/-- Goes on to where the given rest of the text starts. -/
def moveTo (l : Lexer) (rest : List Char) : Lexer :=
  let left := rest.length
  { l with rest := rest, left := left, position := l.position.after (l.left - left) l.rest }

def emit (l : Lexer) (token : Token) : Lexer := { l with tokens := token :: l.tokens, count := l.count + 1 }

/-- Emits a token that the next so many characters are. -/
def emitMark (l : Lexer) (token : Token) (width : Nat) : Lexer :=
  { l with
    rest := l.rest.drop width
    left := l.left - width
    position := l.position.after width l.rest }.emit token

/-! ### Blocks -/

/-- Ends the open blocks that do not pass a test. -/
def endBlocks (l : Lexer) (stays : Nat → Bool) : Lexer :=
  if l.inFlow then l
  else
    let ended := l.blocks.takeWhile (!stays ·)
    { l with
      tokens := ended.map (fun _ => .blockEnd) ++ l.tokens
      count := l.count + ended.length
      blocks := l.blocks.dropWhile (!stays ·) }

/-- Whether a token at a column can open a block: it stands deeper than the innermost one. -/
def opens (l : Lexer) (column : Nat) : Bool := !l.inFlow && l.blocks.head?.all (· < column)

/-- Opens a block at the present column, if the place is deeper than the innermost block. -/
def openBlock (l : Lexer) (token : Token) : Lexer :=
  if l.opens l.position.column then { l.emit token with blocks := l.position.column :: l.blocks } else l

/-! ### Candidates -/

/-- Gives up the innermost candidate, unless it had to become a key. -/
def dropCandidate? (l : Lexer) : Option Lexer :=
  if l.candidate.any (·.required) then none else some { l with candidate := none }

/-- Remembers that a key may start at the present place, and says whether one may start after it. -/
def remember? (l : Lexer) (allowed : Bool) : Option Lexer := do
  if l.keyAllowed then
    let l ← l.dropCandidate?
    let required := !l.inFlow && l.blocks.head? == some l.position.column
    return { l with candidate := some ⟨l.count, l.position, required⟩, keyAllowed := allowed }
  else return { l with keyAllowed := allowed }

/-- The candidate without one that is stale. A stale one must not be required. -/
def fresh? (p : Position) : Option Candidate → Option (Option Candidate)
  | none => some none
  | some k => if k.isStale p then (if k.required then none else some none) else some (some k)

/-- Gives up all stale candidates. -/
def dropStale? (l : Lexer) : Option Lexer := do
  return { l with candidate := ← fresh? l.position l.candidate, outer := ← l.outer.mapM (fresh? l.position) }

/-- The tokens before which no other token can be put in any more, the latest first. -/
def settled (l : Lexer) : List Token :=
  let open_ := (l.candidate :: l.outer).filterMap fun k => k.filter fun k => !k.isStale l.position
  l.tokens.drop (l.count - open_.foldl (fun n k => min n k.number) l.count)

/-- Puts tokens, the latest first, in front of those that follow a candidate. -/
def putAt (l : Lexer) (k : Candidate) (tokens : List Token) : Lexer :=
  let later := l.count - k.number
  { l with tokens := l.tokens.take later ++ tokens ++ l.tokens.drop later, count := l.count + tokens.length }

/-! ### Single tokens -/

/-- Whether a character that is no line break can be passed before a token, outside of comments. A tab is no
    blank where a key may start in a block. A byte order mark may stand at the start of any line. -/
def isPassed (l : Lexer) (c : Char) : Bool :=
  c = ' ' || (c = '\t' && (l.inFlow || !l.keyAllowed)) || (c = '\uFEFF' && l.position.column == 0)

/-- Goes to where the next token starts: past blanks, comments and line breaks. A key may start on a new line
    of a block. -/
def skipToToken (l : Lexer) (inComment : Bool) : List Char → Lexer
  | [] => { l with rest := [] }
  | c :: cs =>
    let next := { l with left := l.left - 1, position := l.position.pass c cs }
    if isBreak c then skipToToken { next with keyAllowed := l.keyAllowed || !l.inFlow } false cs
    else if inComment then skipToToken next true cs
    else if l.isPassed c then skipToToken next false cs
    else if c = '#' then skipToToken next true cs
    else { l with rest := c :: cs }

def toToken (l : Lexer) : Lexer := l.skipToToken false l.rest

/-- Ends all blocks before a token that is part of no document. -/
def leaveDocument? (l : Lexer) : Option Lexer := do
  return { ← (l.endBlocks fun _ => false).dropCandidate? with keyAllowed := false }

def textEnd? (l : Lexer) : Option Lexer := do return (← l.leaveDocument?).emit .textEnd

/-- Reads a directive, which starts with a percent sign. -/
def directiveToken? (l : Lexer) : Option Lexer := do
  let l ← l.leaveDocument?
  let (token, rest) ← directive? (l.rest.drop 1)
  return (l.moveTo rest).emit token

/-- Reads a mark between documents. -/
def documentMark? (l : Lexer) (token : Token) : Option Lexer := do return (← l.leaveDocument?).emitMark token 3

/-- Reads a bracket that opens a collection. -/
def openBracket? (l : Lexer) (token : Token) : Option Lexer := do
  let l ← l.remember? true
  return { l with candidate := none, outer := l.candidate :: l.outer }.emitMark token 1

/-- Reads a bracket that closes a collection. -/
def closeBracket? (l : Lexer) (token : Token) : Option Lexer := do
  let l ← l.dropCandidate?
  let l := match l.outer with
    | [] => l
    | candidate :: outer => { l with candidate := candidate, outer := outer }
  return { l with keyAllowed := false }.emitMark token 1

def comma? (l : Lexer) : Option Lexer := do
  return { ← l.dropCandidate? with keyAllowed := true }.emitMark .comma 1

/-- Reads the hyphen before an element of a sequence. -/
def item? (l : Lexer) : Option Lexer := do
  if !l.inFlow && !l.keyAllowed then none
  return { ← (l.openBlock .blockSequence).dropCandidate? with keyAllowed := true }.emitMark .item 1

/-- Reads the question mark before a key. -/
def key? (l : Lexer) : Option Lexer := do
  if !l.inFlow && !l.keyAllowed then none
  return { ← (l.openBlock .blockMapping).dropCandidate? with keyAllowed := !l.inFlow }.emitMark .key 1

/-- Reads the colon before a value. It makes a key of the innermost candidate, if there is one. -/
def value? (l : Lexer) : Option Lexer :=
  match l.candidate with
  | some k =>
    let l := if l.opens k.position.column
      then { l.putAt k [.key, .blockMapping] with blocks := k.position.column :: l.blocks }
      else l.putAt k [.key]
    some ({ l with candidate := none, keyAllowed := false }.emitMark .value 1)
  | none =>
    if !l.inFlow && !l.keyAllowed then none
    else some ({ l.openBlock .blockMapping with keyAllowed := !l.inFlow }.emitMark .value 1)

/-- Reads a token that starts at the present character and may be a key or stand before one. -/
def keyLike? (l : Lexer) (read : List Char → Option (Parsed Token)) : Option Lexer := do
  let l ← l.remember? false
  let (token, rest) ← read l.rest
  return (l.moveTo rest).emit token

def anchorToken? (l : Lexer) (token : String → Token) : Option Lexer :=
  l.keyLike? fun cs => (anchorName? (cs.drop 1)).map fun (name, rest) => (token name, rest)

def quotedToken? (l : Lexer) : Option Lexer :=
  l.keyLike? fun cs => (quoted? cs).map fun (text, rest) => (.scalar false (String.ofList text), rest)

def plainToken? (l : Lexer) : Option Lexer := do
  let l ← l.remember? false
  let indent := (l.blocks.head?.map (· + 1)).getD 0
  let scalar ← plain? l.inFlow indent l.left l.rest
  return { l.moveTo scalar.rest with keyAllowed := scalar.endsLine }.emit (.scalar true (String.ofList scalar.text))

/-- Reads a block scalar, which starts with one character that tells its kind. -/
def blockToken? (l : Lexer) (isFolded : Bool) : Option Lexer := do
  let l ← l.dropCandidate?
  let (text, rest) ← block? isFolded l.blocks.head? (l.rest.drop 1)
  return { l.moveTo rest with keyAllowed := true }.emit (.scalar false (String.ofList text))

/-! ### All tokens -/

/-- Reads the token that a character starts which is not the last of a text. -/
def tokenAt? (l : Lexer) (c : Char) (rest : List Char) : Option Lexer :=
  let atLineStart := l.position.column == 0
  if atLineStart && c = '%' then l.directiveToken?
  else if atLineStart && startsMark '-' l.rest then l.documentMark? .documentStart
  else if atLineStart && startsMark '.' l.rest then l.documentMark? .documentEnd
  else if c = '[' then l.openBracket? .flowSequence
  else if c = '\x7b' then l.openBracket? .flowMapping
  else if c = ']' then l.closeBracket? .flowSequenceEnd
  else if c = '\x7d' then l.closeBracket? .flowMappingEnd
  else if c = ',' then l.comma?
  else if c = '-' && startsSpace rest then l.item?
  else if c = '?' && (l.inFlow || startsSpace rest) then l.key?
  else if c = ':' && (l.inFlow || startsSpace rest) then l.value?
  else if c = '*' then l.anchorToken? .alias
  else if c = '&' then l.anchorToken? .anchor
  else if c = '!' then l.keyLike? fun cs => tag? l.inFlow (cs.drop 1)
  else if c = '|' && !l.inFlow then l.blockToken? false
  else if c = '>' && !l.inFlow then l.blockToken? true
  else if c = '\x27' || c = '\x22' then l.quotedToken?
  else if startsPlain l.inFlow l.rest then l.plainToken?
  else none

/-- Reads the next token. -/
def next? (l : Lexer) : Option Lexer := do
  let l ← l.toToken.dropStale?
  let l := l.endBlocks (· ≤ l.position.column)
  match l.rest with
  | [] => l.textEnd?
  | c :: rest => l.tokenAt? c rest

/-- The tokens up to the end of the text or to where it breaks the rules, and whether the end was reached. If
    there is more that cannot be read, no token may reach the end. `fuel` is more than the length of the text. -/
def run (hasMore : Bool) : Nat → Lexer → List Token × Bool
  | 0, l => (l.settled.reverse, false)
  | fuel + 1, l =>
    match l.next? with
    | none => (l.settled.reverse, false)
    | some next =>
      if next.dropStale?.isNone || (hasMore && next.rest.isEmpty) then (l.settled.reverse, false)
      else if next.tokens.head? == some .textEnd then (next.tokens.reverse, true)
      else run hasMore fuel next

end Lexer

/-- The tokens of a text up to the first fault, and whether there is none. -/
def tokensOf (text : List Char) : List Token × Bool :=
  let (readable, hasMore) := readablePart [] portionSize text
  (Lexer.ofText readable).run hasMore (readable.length + 1)

end TypedConfig.Yaml

import TypedConfig.Json.Number

/-!
# Reading a value from JSON

The reader takes the standard's grammar and nothing else, and containers up to a fixed depth. A value is
read by recursion on the depth that is left; the lists inside it by recursion on the text.
-/
namespace TypedConfig.Json
open Text (Parsed hexNumber?)

/-- Why a text is not the JSON of a value. -/
inductive Fault where
  | malformed
  | value (fault : ReadFault)
deriving DecidableEq, Repr

/-- How many containers may stand inside each other. -/
def depthLimit : Nat := 127

def isBlank (c : Char) : Bool := c = ' ' || c = '\n' || c = '\t' || c = '\r'

/-- The text without the blanks at its head. -/
def skipBlanks (cs : List Char) : List Char := cs.dropWhile isBlank

/-- The character of a code-point escape, after its `\u`: one word, or two surrogates. -/
def codePoint? (cs : List Char) : Option (Char × List Char) := do
  let (high, rest) ← hexNumber? 4 cs
  if 0xD800 ≤ high ∧ high < 0xDC00 then
    match rest with
    | '\\' :: 'u' :: more =>
      let (low, rest) ← hexNumber? 4 more
      if 0xDC00 ≤ low ∧ low < 0xE000 then
        return (Char.ofNat (0x10000 + (high - 0xD800) * 0x400 + (low - 0xDC00)), rest)
      else none
    | _ => none
  else if 0xDC00 ≤ high ∧ high < 0xE000 then none
  else return (Char.ofNat high, rest)

/-- The character of an escape, after its backslash. -/
def escape? : List Char → Option (Char × List Char)
  | '\x22' :: rest => some ('\x22', rest)
  | '\\' :: rest => some ('\\', rest)
  | '/' :: rest => some ('/', rest)
  | 'b' :: rest => some ('\x08', rest)
  | 'f' :: rest => some ('\x0c', rest)
  | 'n' :: rest => some ('\n', rest)
  | 'r' :: rest => some ('\r', rest)
  | 't' :: rest => some ('\t', rest)
  | 'u' :: rest => codePoint? rest
  | _ => none

/-- Reads a string after its opening quote. `fuel` is the length of the text. -/
def stringBody : Nat → List Char → Except Fault (Parsed (List Char))
  | 0, _ => .error .malformed
  | _ + 1, [] => .error .malformed
  | fuel + 1, c :: cs =>
    if c = '\x22' then .ok ([], cs)
    else if c = '\\' then
      match escape? cs with
      | some (d, rest) => do
        let (ds, rest) ← stringBody fuel rest
        return (d :: ds, rest)
      | none => .error .malformed
    else if c.toNat < 0x20 then .error .malformed
    else do
      let (ds, rest) ← stringBody fuel cs
      return (c :: ds, rest)

/-- Reads a string. -/
def string : List Char → Except Fault (Parsed String)
  | '\x22' :: cs => do
    let (ds, rest) ← stringBody cs.length cs
    return (String.ofList ds, rest)
  | _ => .error .malformed

/-- Reads a word that stands for a value. -/
def word (name : String) (v : Value) (cs : List Char) : Except Fault (Parsed Value) :=
  if name.toList.isPrefixOf cs then .ok (v, cs.drop name.length) else .error .malformed

/-- Reads the elements of an array up to its end. -/
def items (item : List Char → Except Fault (Parsed Value)) :
    Nat → List Char → Except Fault (Parsed (List Value))
  | 0, _ => .error .malformed
  | fuel + 1, cs => do
    let (v, rest) ← item (skipBlanks cs)
    match skipBlanks rest with
    | ',' :: more =>
      let (vs, rest) ← items item fuel more
      return (v :: vs, rest)
    | ']' :: more => return ([v], more)
    | _ => throw .malformed

/-- Reads a member: its key, a colon and its value. -/
def member (item : List Char → Except Fault (Parsed Value)) (cs : List Char) :
    Except Fault (Parsed (String × Value)) := do
  let (key, rest) ← string (skipBlanks cs)
  match skipBlanks rest with
  | ':' :: more =>
    let (v, rest) ← item (skipBlanks more)
    return ((key, v), rest)
  | _ => throw .malformed

/-- Reads the members of an object up to its end, after those already in `m`. -/
def members (item : List Char → Except Fault (Parsed Value)) :
    Nat → Mapping → List Char → Except Fault (Parsed Value)
  | 0, _, _ => .error .malformed
  | fuel + 1, m, cs => do
    let ((key, v), rest) ← member item cs
    if m.standsForWhole (.string key) then
      match skipBlanks rest with
      | '\x7d' :: more => return (v, more)
      | _ => throw .malformed
    else
      let m := m.insert (.string key) v
      match skipBlanks rest with
      | ',' :: more => members item fuel m more
      | '\x7d' :: more => return (.mapping m, more)
      | _ => throw .malformed

/-- Reads the value of a number. -/
def numberValue (cs : List Char) : Except Fault (Parsed Value) := do
  let (event, rest) ← (number cs).mapError fun _ => .malformed
  return (← event.read.mapError .value, rest)

/-- Reads a scalar. -/
def scalar (cs : List Char) : Except Fault (Parsed Value) :=
  match cs with
  | 'n' :: _ => word "null" .null cs
  | 't' :: _ => word "true" (.boolean true) cs
  | 'f' :: _ => word "false" (.boolean false) cs
  | '\x22' :: _ => do
    let (s, rest) ← string cs
    return (.string s, rest)
  | _ => numberValue cs

/-- Reads a value inside which containers may stand to a depth. -/
def value : Nat → List Char → Except Fault (Parsed Value)
  | 0, cs =>
    match cs with
    | '[' :: _ => .error .malformed
    | '\x7b' :: _ => .error .malformed
    | _ => scalar cs
  | depth + 1, cs =>
    match cs with
    | '[' :: rest =>
      match skipBlanks rest with
      | ']' :: more => .ok (.sequence [], more)
      | _ => do
        let (vs, more) ← items (value depth) rest.length rest
        return (.sequence vs, more)
    | '\x7b' :: rest =>
      match skipBlanks rest with
      | '\x7d' :: more => .ok (.mapping [], more)
      | _ => members (value depth) rest.length [] rest
    | _ => scalar cs

/-- The value that a JSON text stands for. -/
def read (text : String) : Except Fault Value := do
  let (v, rest) ← value depthLimit (skipBlanks text.toList)
  if (skipBlanks rest).isEmpty then return v else throw .malformed

end TypedConfig.Json

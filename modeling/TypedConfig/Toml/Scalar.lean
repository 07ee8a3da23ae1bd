import TypedConfig.Binary.Reading
import TypedConfig.Text
import TypedConfig.Value.Event

/-!
# Scalars in TOML
-/
namespace TypedConfig.Toml
open Binary (spanDigits splitSign naturalOf)
open Text (Parsed hexChar? hexDigit?)

/-!
## Blanks, comments and line ends in TOML

A line ends with a line feed, alone or after a carriage return. A comment runs to the end of its line and
holds no control character but the tab.
-/

/-- A space or a tab. -/
def isBlank (c : Char) : Bool := c = ' ' || c = '\t'

/-- A tab or a character that is no control; these stand in comments and strings as they are. -/
def isPlain (c : Char) : Bool := c = '\t' || (0x20 ≤ c.toNat && c.toNat ≠ 0x7F)

/-- The text without the blanks at its head. -/
def skipBlanks (cs : List Char) : List Char := cs.dropWhile isBlank

/-- The text after the line end at its head. -/
def newline? : List Char → Option (List Char)
  | '\n' :: rest => some rest
  | '\r' :: '\n' :: rest => some rest
  | _ => none

/-- The text without the blanks and the comment at its head. -/
def skipComment (cs : List Char) : List Char :=
  match skipBlanks cs with
  | '#' :: rest => rest.dropWhile isPlain
  | rest => rest

/-- The text after a line that has nothing more to say: blanks and a comment, up to the line end or the
    end of the text. -/
def endLine? (cs : List Char) : Option (List Char) :=
  match skipComment cs with
  | [] => some []
  | rest => newline? rest

/-- The text without the blanks, comments and line ends at its head. `fuel` is at least its length. -/
def skipLines : Nat → List Char → List Char
  | 0, cs => cs
  | fuel + 1, cs =>
    match newline? (skipComment cs) with
    | some rest => skipLines fuel rest
    | none => skipBlanks cs

/-- The text without blanks and line ends at its head. -/
def skipSpace : List Char → List Char
  | [] => []
  | '\n' :: rest => skipSpace rest
  | '\r' :: '\n' :: rest => skipSpace rest
  | c :: rest => if isBlank c then skipSpace rest else c :: rest

/-!
## Strings in TOML

A basic string stands between double quotes and may contain escapes; a literal string stands between single
quotes and is taken as it is. Between three quotes of a kind a string may span lines: a line end right
after the opening quotes is dropped, every other one counts as a line feed.
-/

/-- The character of an escape, after its backslash. -/
def escape? : List Char → Option (Parsed Char)
  | 'b' :: rest => some ('\x08', rest)
  | 't' :: rest => some ('\t', rest)
  | 'n' :: rest => some ('\n', rest)
  | 'f' :: rest => some ('\x0c', rest)
  | 'r' :: rest => some ('\r', rest)
  | '\x22' :: rest => some ('\x22', rest)
  | '\\' :: rest => some ('\\', rest)
  | 'u' :: rest => hexChar? 4 rest
  | 'U' :: rest => hexChar? 8 rest
  | _ => none

/-- Puts a character in front of the characters that were read. -/
def prepend (c : Char) (parsed : Option (Parsed (List Char))) : Option (Parsed (List Char)) :=
  parsed.map fun (cs, rest) => (c :: cs, rest)

/-- Reads a basic string after its opening quote. `fuel` is more than the length of the text. -/
def basicBody : Nat → List Char → Option (Parsed (List Char))
  | 0, _ => none
  | _ + 1, [] => none
  | fuel + 1, c :: cs =>
    if c = '\x22' then some ([], cs)
    else if c = '\\' then do
      let (d, rest) ← escape? cs
      prepend d (basicBody fuel rest)
    else if isPlain c then prepend c (basicBody fuel cs)
    else none

/-- Reads a literal string after its opening quote. -/
def literalBody : List Char → Option (Parsed (List Char))
  | [] => none
  | c :: cs =>
    if c = '\x27' then some ([], cs)
    else if isPlain c then prepend c (literalBody cs)
    else none

/-- How many times a character stands at the head of a text. -/
def runLength (c : Char) (cs : List Char) : Nat := (cs.takeWhile (· == c)).length

/-- The end of a string between three quotes that a run of quotes makes: three close the string, and up to
    two more in front of them belong to it. -/
def closing? (quote : Char) (cs : List Char) : Option (Parsed (List Char)) :=
  let run := runLength quote cs
  if 3 ≤ run ∧ run ≤ 5 then some (List.replicate (run - 3) quote, cs.drop run) else none

/-- The text after a line end that a backslash hides: with it go the blanks before it and all blanks and line
    ends after it. -/
def hiddenLineEnd? (cs : List Char) : Option (List Char) := (newline? (skipBlanks cs)).map skipSpace

/-- Reads a basic or literal string between three quotes, after those that open it and the line end that
    may follow them. `fuel` is more than the length of the text. -/
def longBody (quote : Char) (escapes : Bool) : Nat → List Char → Option (Parsed (List Char))
  | 0, _ => none
  | _ + 1, [] => none
  | fuel + 1, c :: cs =>
    if c = quote then
      if runLength quote cs < 2 then prepend c (longBody quote escapes fuel cs) else closing? quote (c :: cs)
    else if escapes ∧ c = '\\' then
      match hiddenLineEnd? cs with
      | some rest => longBody quote escapes fuel rest
      | none => do
        let (d, rest) ← escape? cs
        prepend d (longBody quote escapes fuel rest)
    else if isPlain c then prepend c (longBody quote escapes fuel cs)
    else do prepend '\n' (longBody quote escapes fuel (← newline? (c :: cs)))

/-- Reads a string on one line. -/
def shortString? : List Char → Option (Parsed (List Char))
  | '\x22' :: rest => basicBody (rest.length + 1) rest
  | '\x27' :: rest => literalBody rest
  | _ => none

/-- Reads a string between three quotes, from the text after them. -/
def longString? (quote : Char) (cs : List Char) : Option (Parsed (List Char)) :=
  let body := (newline? cs).getD cs
  longBody quote (quote == '\x22') (body.length + 1) body

/-- Reads a string. -/
def string? : List Char → Option (Parsed (List Char))
  | '\x22' :: '\x22' :: '\x22' :: rest => longString? '\x22' rest
  | '\x27' :: '\x27' :: '\x27' :: rest => longString? '\x27' rest
  | cs => shortString? cs

/-!
## Numbers in TOML

An underscore may stand between any two digits. A whole number in base ten has no zeros in front; one in
base sixteen, eight or two has no sign. Integers fit in 64 bits with a sign.
-/

/-- The digits at the head of a text that goes on after a digit, without the underscores, and the rest. -/
def moreDigits (isDigit : Char → Bool) : List Char → Parsed (List Char)
  | [] => ([], [])
  | '_' :: c :: cs =>
    if isDigit c then
      let (ds, rest) := moreDigits isDigit cs
      (c :: ds, rest)
    else ([], '_' :: c :: cs)
  | c :: cs =>
    if isDigit c then
      let (ds, rest) := moreDigits isDigit cs
      (c :: ds, rest)
    else ([], c :: cs)

/-- Reads digits, of which there is at least one. -/
def digits? (isDigit : Char → Bool) : List Char → Option (Parsed (List Char))
  | [] => none
  | c :: cs =>
    if isDigit c then
      let (ds, rest) := moreDigits isDigit cs
      some (c :: ds, rest)
    else none

/-- Reads digits that stand for a whole number in base ten: a zero, or digits of which the first is none. -/
def whole? : List Char → Option (Parsed (List Char))
  | '0' :: rest => some (['0'], rest)
  | cs => digits? Char.isDigit cs

/-- The sign of a number and what follows it. -/
def sign (cs : List Char) : Parsed Bool :=
  let (sign, rest) := splitSign cs
  (sign == some true, rest)

/-- Reads the exponent of a number. -/
def exponent? : List Char → Option (Parsed Int)
  | c :: cs =>
    if c = 'e' ∨ c = 'E' then do
      let (negative, rest) := sign cs
      let (ds, rest) ← digits? Char.isDigit rest
      return (if negative then -(naturalOf ds : Int) else naturalOf ds, rest)
    else none
  | [] => none

/-- Reads what makes a whole number one with a fraction or an exponent: the fraction's digits and the power
    of ten. -/
def fractional? : List Char → Option (Parsed (List Char × Int))
  | '.' :: cs => do
    let (ds, rest) ← digits? Char.isDigit cs
    match exponent? rest with
    | some (e, rest) => return ((ds, e), rest)
    | none => return ((ds, 0), rest)
  | cs => (exponent? cs).map fun (e, rest) => (([], e), rest)

/-- The floating-point number with a significand and a power of ten. A literal too large for a positive
    number stands for none. -/
def floatOf? (negative : Bool) (significand : Nat) (e : Int) : Option Binary64 :=
  let x := Binary64.ofDecimal negative significand e
  if x = .infinity false then none else some x

/-- Reads a number with a fraction or an exponent. -/
def float? (cs : List Char) : Option (Parsed Binary64) := do
  let (negative, rest) := sign cs
  let (whole, rest) ← whole? rest
  let ((fraction, e), rest) ← fractional? rest
  let x ← floatOf? negative (naturalOf (whole ++ fraction)) (e - fraction.length)
  return (x, rest)

/-- Reads one of the words for infinity and for what is no number. -/
def wordFloat? (cs : List Char) : Option (Parsed Binary64) :=
  let (negative, rest) := sign cs
  match rest with
  | 'i' :: 'n' :: 'f' :: rest => some (.infinity negative, rest)
  | 'n' :: 'a' :: 'n' :: rest => some (.nan, rest)
  | _ => none

/-- Whether a character is a digit in a base of at most sixteen. -/
def isDigitIn (base : Nat) (c : Char) : Bool := (hexDigit? c).any (· < base)

/-- Reads an integer in a base other than ten, after the letter that names the base. -/
def basedInteger? (base : Nat) (cs : List Char) : Option (Parsed Int64) := do
  let (ds, rest) ← digits? (isDigitIn base) cs
  let n ← int64? (ds.foldl (fun n d => base * n + (hexDigit? d).getD 0) 0 : Nat)
  return (n, rest)

/-- Reads an integer. -/
def integer? (cs : List Char) : Option (Parsed Int64) :=
  match cs with
  | '0' :: 'x' :: rest => basedInteger? 16 rest
  | '0' :: 'o' :: rest => basedInteger? 8 rest
  | '0' :: 'b' :: rest => basedInteger? 2 rest
  | _ => do
    let (negative, rest) := sign cs
    let (ds, rest) ← whole? rest
    let n ← int64? (if negative then -(naturalOf ds : Int) else naturalOf ds)
    return (n, rest)

/-- Reads a number. -/
def number? (cs : List Char) : Option (Parsed Event) :=
  match float? cs <|> wordFloat? cs with
  | some (x, rest) => some (.float x, rest)
  | none => (integer? cs).map fun (n, rest) => (.signed n, rest)

/-!
## Dates and times in TOML

A date, a time of day, or both, and with both also the distance from universal time. `DateTime.text` writes
them in one form: the letters are capitals, and fractions of a second are cut to nine places and end with
no zero.
-/

structure Date where
  year : Nat
  month : Nat
  day : Nat
deriving DecidableEq, Repr

structure Time where
  hour : Nat
  minute : Nat
  second : Nat
  nanosecond : Nat
deriving DecidableEq, Repr

/-- The distance from universal time. -/
inductive Offset where
  | zulu
  | minutes (n : Int)
deriving DecidableEq, Repr

inductive DateTime where
  | date (date : Date)
  | time (time : Time)
  | moment (date : Date) (time : Time) (offset : Option Offset)
deriving DecidableEq, Repr

/-! ### Writing -/

/-- A natural in at least so many digits. -/
def padded (width n : Nat) : List Char :=
  let ds := Nat.toDigits 10 n
  List.replicate (width - ds.length) '0' ++ ds

def Date.chars (d : Date) : List Char :=
  padded 4 d.year ++ '-' :: padded 2 d.month ++ '-' :: padded 2 d.day

/-- The digits of a fraction of a second, after a point; nothing for a whole second. -/
def fractionChars (nanosecond : Nat) : List Char :=
  if nanosecond = 0 then [] else '.' :: ((padded 9 nanosecond).reverse.dropWhile (· == '0')).reverse

def Time.chars (t : Time) : List Char :=
  padded 2 t.hour ++ ':' :: padded 2 t.minute ++ ':' :: padded 2 t.second ++ fractionChars t.nanosecond

def Offset.chars : Offset → List Char
  | .zulu => ['Z']
  | .minutes n =>
    (if n < 0 then '-' else '+') :: padded 2 (n.natAbs / 60) ++ ':' :: padded 2 (n.natAbs % 60)

/-- The form in which a date or a time is handed over. -/
def DateTime.text (moment : DateTime) : String :=
  String.ofList <| match moment with
    | .date d => d.chars
    | .time t => t.chars
    | .moment d t none => d.chars ++ 'T' :: t.chars
    | .moment d t (some o) => d.chars ++ 'T' :: t.chars ++ o.chars

/-! ### Reading -/

/-- Reads a number of exactly so many digits that lies between two bounds. -/
def field? (width least greatest : Nat) (cs : List Char) : Option (Parsed Nat) :=
  let ds := cs.take width
  let n := naturalOf ds
  if ds.length = width ∧ ds.all Char.isDigit ∧ least ≤ n ∧ n ≤ greatest then some (n, cs.drop width)
  else none

/-- The text after a character that must stand at its head. -/
def after? (c : Char) : List Char → Option (List Char)
  | [] => none
  | d :: rest => if c = d then some rest else none

def isLeapYear (year : Nat) : Bool := year % 4 = 0 && (year % 100 ≠ 0 || year % 400 = 0)

/-- The number of days in a month. -/
def daysIn (year month : Nat) : Nat :=
  if month = 2 then (if isLeapYear year then 29 else 28)
  else if month = 4 ∨ month = 6 ∨ month = 9 ∨ month = 11 then 30
  else 31

/-- Reads a date that is in the calendar. -/
def date? (cs : List Char) : Option (Parsed Date) := do
  let (year, rest) ← field? 4 0 9999 cs
  let (month, rest) ← field? 2 1 12 (← after? '-' rest)
  let (day, rest) ← field? 2 1 (daysIn year month) (← after? '-' rest)
  return (⟨year, month, day⟩, rest)

/-- Reads the fraction of a second, if there is one; a point must have digits after it. -/
def nanosecond? : List Char → Option (Parsed Nat)
  | '.' :: cs =>
    let (ds, rest) := spanDigits cs
    if ds.isEmpty then none else some (naturalOf ((ds ++ List.replicate 9 '0').take 9), rest)
  | cs => some (0, cs)

/-- Reads a time of day. The second after the last of a minute is one, because some minutes have it. -/
def time? (cs : List Char) : Option (Parsed Time) := do
  let (hour, rest) ← field? 2 0 23 cs
  let (minute, rest) ← field? 2 0 59 (← after? ':' rest)
  let (second, rest) ← field? 2 0 60 (← after? ':' rest)
  let (nanosecond, rest) ← nanosecond? rest
  return (⟨hour, minute, second, nanosecond⟩, rest)

/-- Reads hours and minutes of a distance from universal time, after its sign. -/
def offsetMinutes? (cs : List Char) : Option (Parsed Nat) := do
  let (hour, rest) ← field? 2 0 23 cs
  let (minute, rest) ← field? 2 0 59 (← after? ':' rest)
  return (60 * hour + minute, rest)

/-- Reads a distance from universal time. -/
def offset? : List Char → Option (Parsed Offset)
  | c :: cs =>
    if c = 'Z' ∨ c = 'z' then some (.zulu, cs)
    else if c = '+' then (offsetMinutes? cs).map fun (n, rest) => (.minutes n, rest)
    else if c = '-' then (offsetMinutes? cs).map fun (n, rest) => (.minutes (-n), rest)
    else none
  | [] => none

/-- Reads the time of day after a date, with the letter or the space between them. -/
def timeAfterDate? : List Char → Option (Parsed Time)
  | c :: cs => if c = 'T' ∨ c = 't' ∨ c = ' ' then time? cs else none
  | [] => none

/-- Reads a date or a time. -/
def dateTime? (cs : List Char) : Option (Parsed DateTime) :=
  match date? cs with
  | none => (time? cs).map fun (time, rest) => (.time time, rest)
  | some (date, rest) =>
    match timeAfterDate? rest with
    | none => some (.date date, rest)
    | some (time, rest) =>
      match offset? rest with
      | none => some (.moment date time none, rest)
      | some (offset, rest) => some (.moment date time (some offset), rest)

end TypedConfig.Toml

import TypedConfig.Binary.Reading
import TypedConfig.Text
import TypedConfig.Value.Event

/-!
# Numbers in JSON

An integer literal that fits in 64 bits is an integer; every other literal is a floating-point number.
Its digits are taken as long as their significand fits in 64 bits. The significand is rounded to a
floating-point number, and multiplied or divided by a power of ten with one more rounding.
-/
namespace TypedConfig.Json
open Binary (digitValue spanDigits splitSign naturalOf)
open Text (Parsed)

/-- Why a text does not start with a number. -/
inductive NumberFault.Cause where
  /-- The text ends where a digit must stand. -/
  | ended
  /-- Something else stands where a digit must, or a digit after a leading zero. -/
  | invalid
  /-- The number is too large for a floating-point number. -/
  | outOfRange
deriving DecidableEq, Repr

def NumberFault.Cause.message : NumberFault.Cause → String
  | .ended => "EOF while parsing a value"
  | .invalid => "invalid number"
  | .outOfRange => "number out of range"

/-- What is wrong with a number, and the text after the character that shows it. -/
structure NumberFault where
  cause : NumberFault.Cause
  rest : List Char
deriving DecidableEq, Repr

/-- The fault of a text that does not start with a digit. -/
def NumberFault.noDigit : List Char → NumberFault
  | [] => ⟨.ended, []⟩
  | _ :: rest => ⟨.invalid, rest⟩

/-- The significand with the leading digits of a text taken into it as long as it fits in 64 bits, how
    many were taken, and the rest of the text. -/
def takeDigits (significand : Nat) : List Char → Nat × Nat × List Char
  | [] => (significand, 0, [])
  | c :: cs =>
    let next := significand * 10 + digitValue c
    if c.isDigit ∧ next < UInt64.size then
      let (final, taken, rest) := takeDigits next cs
      (final, taken + 1, rest)
    else (significand, 0, c :: cs)

/-- The greatest power of ten that is a floating-point number. -/
def greatestPower : Nat := 308

/-- A floating-point power of ten. -/
def powerOfTen (e : Nat) : Binary64 := .ofDecimal false 1 e

/-- A magnitude times a power of ten, or nothing if that is too large. A magnitude is divided by the
    greatest power as often as needed; two such divisions leave zero of any significand. -/
def scale : Nat → Binary64 → Int → Option Binary64
  | 0, _, _ => some .zero
  | divisions + 1, x, e =>
    if e.natAbs ≤ greatestPower then
      if 0 ≤ e then
        let y := x.product (powerOfTen e.natAbs)
        if y.isInfinite then none else some y
      else some (x.quotient (powerOfTen e.natAbs))
    else if x.isZero then some x
    else if 0 ≤ e then none
    else scale divisions (x.quotient (powerOfTen greatestPower)) (e + greatestPower)

/-- The text after the digit with which an exponent is too large for 32 bits with a sign, if one is. `e` is what
    the digits before add up to. -/
def afterHugeExponent? (e : Nat) : List Char → Option (List Char)
  | [] => none
  | c :: cs =>
    let next := e * 10 + digitValue c
    if Int32.maxValue.toNatClampNeg < next then some cs else afterHugeExponent? next cs

/-- The exponent part at the head of a text, if there is one. A huge positive exponent is too large for any
    significand but zero. -/
def exponent (significand : Nat) (cs : List Char) : Except NumberFault (Option Int × List Char) :=
  match cs with
  | c :: rest =>
    if c = 'e' ∨ c = 'E' then
      let (sign, rest) := splitSign rest
      let (ds, rest) := spanDigits rest
      if ds.isEmpty then .error (.noDigit rest)
      else if sign = some true then .ok (some (-(naturalOf ds : Int)), rest)
      else match if significand = 0 then none else afterHugeExponent? 0 ds with
        | some unread => .error ⟨.outOfRange, unread ++ rest⟩
        | none => .ok (some (naturalOf ds), rest)
    else .ok (none, cs)
  | [] => .ok (none, [])

/-- The fraction at the head of a text, if there is one: the significand that its digits are taken into,
    and how many were taken. -/
def fraction (significand : Nat) (cs : List Char) : Except NumberFault (Option (Nat × Nat) × List Char) :=
  match cs with
  | '.' :: rest =>
    if (spanDigits rest).1.isEmpty then .error (.noDigit rest)
    else
      let (final, taken, _) := takeDigits significand rest
      .ok (some (final, taken), (spanDigits rest).2)
  | _ => .ok (none, cs)

/-- What an integer literal tells whose digits fit in 64 bits. There is no negative integer zero. -/
def integer (negative : Bool) (significand : Nat) : Event :=
  if negative then
    match if significand = 0 then none else int64? (-significand) with
    | some n => .signed n
    | none => .float (Binary64.ofNat significand).negate
  else .unsigned (UInt64.ofNat significand)

/-- Reads a number, whose sign has been read, from the digits of its whole part on. -/
def unsignedNumber (negative : Bool) (cs : List Char) : Except NumberFault (Parsed Event) := do
  let (whole, afterWhole) := spanDigits cs
  let (significand, taken, _) := takeDigits 0 whole
  let dropped := whole.length - taken
  if whole.isEmpty then throw (.noDigit cs)
  if whole.head? == some '0' && whole.length != 1 then throw ⟨.invalid, cs.drop 2⟩
  let (fractional, afterFraction) ← fraction significand afterWhole
  let (final, places) := fractional.getD (significand, 0)
  let (power, rest) ← exponent final afterFraction
  match fractional, power, dropped with
  | none, none, 0 => return (integer negative significand, rest)
  | _, _, _ =>
    match scale 3 (.ofNat final) (power.getD 0 + dropped - places) with
    | some x => return (.float (if negative then x.negate else x), rest)
    | none => throw ⟨.outOfRange, rest⟩

/-- Reads a number. -/
def number : List Char → Except NumberFault (Parsed Event)
  | '-' :: cs => unsignedNumber true cs
  | cs => unsignedNumber false cs

end TypedConfig.Json

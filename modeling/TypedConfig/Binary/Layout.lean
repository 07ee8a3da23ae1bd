import TypedConfig.Binary.Binary64

/-!
# Writing a number

A number is written with the fewest digits that identify it.
-/
namespace TypedConfig.Binary

/-!
## The fewest digits that identify a number

Of the decimals that read back as a given number, `Binary64.shortest` picks one with the fewest
digits, and of those the nearest. Only two candidates of each length need a test: the neighbours of
the number among the decimals with that last place.
-/

/-- The decimal `digits * 10^exponent`. -/
structure Decimal where
  digits : Nat
  exponent : Int
deriving Repr, DecidableEq

/-- Which of two equally near decimals is taken. -/
inductive Tie where
  | toEven
  | upward

/-- A quotient of naturals, the second not zero. -/
structure Ratio where
  num : Nat
  den : Nat

namespace Ratio

/-- The ratio `n * b^e`. -/
def scaled (n b : Nat) (e : Int) : Ratio := ⟨n * Nat.pow b e.toNat, Nat.pow b (-e).toNat⟩

def compare (x y : Ratio) : Ordering := Ord.compare (x.num * y.den) (y.num * x.den)

end Ratio

/-- The reals that round to one number: from half way to the neighbour below to half way to the
    neighbour above. -/
structure Interval where
  low : Ratio
  high : Ratio
  /-- Both ends belong to the interval. -/
  closed : Bool

namespace Interval

def contains (i : Interval) (x : Ratio) : Bool :=
  match i.low.compare x, x.compare i.high with
  | .lt, .lt => true
  | .gt, _ => false
  | _, .gt => false
  | _, _ => i.closed

end Interval

namespace Decimal

def ratio (d : Decimal) : Ratio := Ratio.scaled d.digits 10 d.exponent

/-- The same decimal without trailing zeros, at most `fuel` of them. -/
def dropZeros : Nat → Decimal → Decimal
  | 0, d => d
  | fuel + 1, d => if d.digits % 10 = 0 then dropZeros fuel ⟨d.digits / 10, d.exponent + 1⟩ else d

/-- How many decimal digits a natural has. -/
def width (n : Nat) : Nat := (Nat.toDigits 10 n).length

end Decimal

end TypedConfig.Binary

namespace TypedConfig.Binary64
open TypedConfig.Binary

/-- The reals that round to a finite number's magnitude. Just above a power of two the gap below is
    half the gap above. -/
def interval (x : Binary64) : Interval :=
  let (m, q) := x.parts
  let narrow := m = Nat.pow 2 Width.double.fractionBits ∧ Width.double.lowest < q
  { low := Ratio.scaled (if narrow then 4 * m - 1 else 4 * m - 2) 2 (q - 2)
    high := Ratio.scaled (4 * m + 2) 2 (q - 2)
    closed := m % 2 = 0 }

/-- The magnitude of a finite number as a ratio. -/
def ratio (x : Binary64) : Ratio := Ratio.scaled x.parts.1 2 x.parts.2

/-- The least `k` with the magnitude below `10^k`. No number that is not zero is below `10^(-400)`,
    so the whole part of the number of units of `10^(-400)` has that many digits and 400 more. -/
def decimalPlace (x : Binary64) : Int :=
  Decimal.width (x.ratio.num * Nat.pow 10 400 / x.ratio.den) - 400

/-- The better of the two neighbours of `x` among the multiples of `10^exponent`, of those that read
    back as `x`. -/
def neighbour? (tie : Tie) (x : Binary64) (exponent : Int) : Option Decimal :=
  let v := x.ratio
  let floor := v.num * Nat.pow 10 (-exponent).toNat / (v.den * Nat.pow 10 exponent.toNat)
  let below : Decimal := ⟨floor, exponent⟩
  let above : Decimal := ⟨floor + 1, exponent⟩
  match x.interval.contains below.ratio, x.interval.contains above.ratio with
  | true, false => some below
  | false, true => some above
  | false, false => none
  | true, true =>
    let middle := Ratio.scaled (2 * floor + 1) 10 exponent
    match (Ratio.compare ⟨2 * v.num, v.den⟩ middle : Ordering), tie with
    | .lt, _ => some below
    | .gt, _ => some above
    | .eq, .upward => some above
    | .eq, .toEven => some (if floor % 2 = 0 then below else above)

/-- The fewest digits that read back as a finite number that is not zero. Seventeen always suffice. -/
def shortest (tie : Tie) (x : Binary64) : Decimal :=
  let place := x.decimalPlace
  let found := (List.range 17).findSome? fun (n : Nat) => x.neighbour? tie (place - n - 1)
  match found with
  | some d => d.dropZeros 17
  | none => ⟨x.ratio.num * Nat.pow 10 400 / x.ratio.den, -400⟩

end TypedConfig.Binary64

/-!
## The text of a number

A `Layout` holds what a written form of floating-point numbers is free to decide; `Layout.text`
applies it to the fewest digits that identify a number.
-/

namespace TypedConfig.Binary

/-- The decisions of a written form of floating-point numbers. -/
structure Layout where
  tie : Tie
  /-- Numbers whose leading digit stands for `10^e` are written positionally for `plainFrom ≤ e < plainBelow`. -/
  plainFrom : Int
  plainBelow : Int
  /-- A positive exponent has a sign. -/
  signedExponent : Bool

namespace Layout

/-- The digits of a natural in base ten. -/
def digitsOf (n : Nat) : List Char := Nat.toDigits 10 n

/-- The positional form of the digits `ds`, the last of which stands for `10^exponent`. -/
def plain (ds : List Char) (exponent : Int) : List Char :=
  if 0 ≤ exponent then ds ++ List.replicate exponent.toNat '0' ++ ['.', '0']
  else
    let places := (-exponent).toNat
    if places < ds.length then
      ds.take (ds.length - places) ++ '.' :: ds.drop (ds.length - places)
    else '0' :: '.' :: List.replicate (places - ds.length) '0' ++ ds

/-- The form with one digit before the point and the leading digit's exponent `e`. -/
def scientific (l : Layout) (ds : List Char) (e : Int) : List Char :=
  let significand := match ds with
    | d :: rest@(_ :: _) => d :: '.' :: rest
    | _ => ds
  let sign := if e < 0 then ['-'] else if l.signedExponent then ['+'] else []
  significand ++ 'e' :: sign ++ digitsOf e.natAbs

/-- The text of a finite number's magnitude. -/
def finite (l : Layout) (x : Binary64) : List Char :=
  if x.isZero then ['0', '.', '0']
  else
    let d := x.shortest l.tie
    let ds := digitsOf d.digits
    let e := d.exponent + ds.length - 1
    if l.plainFrom ≤ e ∧ e < l.plainBelow then plain ds d.exponent else l.scientific ds e

/-- The text of a number. -/
def text (l : Layout) (x : Binary64) : List Char :=
  if x.isNaN then ['N', 'a', 'N']
  else
    (if x.isNegative then ['-'] else []) ++
      (if x.isInfinite then ['i', 'n', 'f'] else l.finite x)

end Layout

end TypedConfig.Binary

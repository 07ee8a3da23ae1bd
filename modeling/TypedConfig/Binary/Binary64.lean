/-!
# Double-precision numbers

A number is its 64-bit word. Equality of words and equality of numbers differ: no NaN equals
anything, and the two zeros are equal (`Binary64.same`).
-/
namespace TypedConfig.Binary

/-!
## Binary interchange formats

A finite number of such a format is `m * 2^q`. `Width.decode` reads `m` and `q` out of the magnitude
part of a word, and `Width.nearest` finds the word of the number nearest to a quotient of naturals,
a half going to the even neighbour and anything too large to the infinite word.
-/

/-- How many bits of a word hold the fraction and how many hold the exponent. -/
structure Width where
  fractionBits : Nat
  exponentBits : Nat

namespace Width

/-- The 64-bit format. -/
def double : Width := ⟨52, 11⟩

/-- The 32-bit format. -/
def single : Width := ⟨23, 8⟩

/-- The exponent of the last place of the least numbers. -/
def lowest (w : Width) : Int := 2 - Nat.pow 2 (w.exponentBits - 1) - w.fractionBits

/-- The magnitude word of an infinity; greater words are no numbers. -/
def infinite (w : Width) : Nat := (Nat.pow 2 w.exponentBits - 1) * Nat.pow 2 w.fractionBits

/-- The significand `m` and the exponent `q` of the finite magnitude `m * 2^q` that a word stands for. -/
def decode (w : Width) (word : Nat) : Nat × Int :=
  let fraction := word % Nat.pow 2 w.fractionBits
  match word / Nat.pow 2 w.fractionBits with
  | 0 => (fraction, w.lowest)
  | place + 1 => (Nat.pow 2 w.fractionBits + fraction, w.lowest + place)

end Width

/-- The natural nearest to a quotient, a half going to the even one. -/
def roundHalfEven (num den : Nat) : Nat :=
  let floor := num / den
  let rest := 2 * (num % den)
  if rest < den then floor
  else if den < rest then floor + 1
  else floor + floor % 2

/-- Numerator and denominator of `num / den` counted in units of `2^q`. -/
def inUnits (num den : Nat) (q : Int) : Nat × Nat :=
  (num * Nat.pow 2 (-q).toNat, den * Nat.pow 2 q.toNat)

namespace Width

/-- The exponent of the last place that the number nearest to `num / den` keeps. -/
def lastPlace (w : Width) (num den : Nat) : Int :=
  let guess : Int := (Nat.log2 num : Int) - Nat.log2 den - w.fractionBits - 1
  let (top, bottom) := inUnits num den guess
  let exact := if top / bottom < Nat.pow 2 (w.fractionBits + 1) then guess else guess + 1
  max exact w.lowest

/-- The magnitude word of the number nearest to `num / den`. A significand that rounding carries out of
    its range moves into the exponent, so the sum below is right there too. -/
def nearest (w : Width) (num den : Nat) : Nat :=
  if num = 0 then 0 else
    let q := w.lastPlace num den
    let (top, bottom) := inUnits num den q
    let word := roundHalfEven top bottom + (q - w.lowest).toNat * Nat.pow 2 w.fractionBits
    min word w.infinite

/-- The magnitude word of the number nearest to `m * 2^q`. -/
def nearestScaled (w : Width) (m : Nat) (q : Int) : Nat :=
  w.nearest (m * Nat.pow 2 q.toNat) (Nat.pow 2 (-q).toNat)

/-- The magnitude word of the number nearest to `m * 10^e`. Powers far outside every format's range
    are answered without being computed. -/
def nearestDecimal (w : Width) (m : Nat) (e : Int) : Nat :=
  if m = 0 then 0
  else if 400 < e then w.infinite
  else if e + Nat.log2 m < -400 then 0
  else w.nearest (m * Nat.pow 10 e.toNat) (Nat.pow 10 (-e).toNat)

end Width

end TypedConfig.Binary

/-! ## Words -/

namespace TypedConfig

/-- A binary floating-point number of 64 bits. -/
structure Binary64 where
  bits : UInt64
deriving DecidableEq, Repr

namespace Binary64
open Binary (Width)

/-- The word without its sign. -/
def magnitude (x : Binary64) : Nat := x.bits.toNat % Nat.pow 2 63

/-- Whether the sign bit is set. -/
def isNegative (x : Binary64) : Bool := Nat.pow 2 63 ≤ x.bits.toNat

def isNaN (x : Binary64) : Bool := Width.double.infinite < x.magnitude

def isInfinite (x : Binary64) : Bool := x.magnitude == Width.double.infinite

def isFinite (x : Binary64) : Bool := x.magnitude < Width.double.infinite

def isZero (x : Binary64) : Bool := x.magnitude == 0

/-- Numeric equality: false for every NaN, true for two zeros of any sign. -/
def same (x y : Binary64) : Bool :=
  !x.isNaN && !y.isNaN && (x.bits == y.bits || (x.isZero && y.isZero))

/-- The number with the given sign and magnitude word. -/
def ofMagnitude (negative : Bool) (word : Nat) : Binary64 :=
  ⟨UInt64.ofNat (if negative then word + Nat.pow 2 63 else word)⟩

def zero : Binary64 := ofMagnitude false 0

def infinity (negative : Bool) : Binary64 := ofMagnitude negative Width.double.infinite

/-- The one NaN that reading and arithmetic produce. -/
def nan : Binary64 := ofMagnitude false (Width.double.infinite + Nat.pow 2 51)

/-- The same number with the sign turned. -/
def negate (x : Binary64) : Binary64 := ofMagnitude (!x.isNegative) x.magnitude

/-- Significand and exponent of a finite number's magnitude. -/
def parts (x : Binary64) : Nat × Int := Width.double.decode x.magnitude

/-- The number nearest to `m * 10^e`. -/
def ofDecimal (negative : Bool) (m : Nat) (e : Int) : Binary64 :=
  ofMagnitude negative (Width.double.nearestDecimal m e)

/-- The number nearest to a natural. -/
def ofNat (n : Nat) : Binary64 := ofMagnitude false (Width.double.nearest n 1)

/-- The number nearest to an integer. -/
def ofInt (n : Int) : Binary64 := ofMagnitude (n < 0) (Width.double.nearest n.natAbs 1)

/-- The number of 64 bits that equals a number of 32 bits given by sign and magnitude word. -/
def ofSingle (negative : Bool) (word : Nat) : Binary64 :=
  if word = Width.single.infinite then infinity negative
  else
    let (m, q) := Width.single.decode word
    ofMagnitude negative (Width.double.nearestScaled m q)

/-- The product of the magnitudes of two finite numbers, rounded once. -/
def product (x y : Binary64) : Binary64 :=
  ofMagnitude false (Width.double.nearestScaled (x.parts.1 * y.parts.1) (x.parts.2 + y.parts.2))

/-- The quotient of the magnitudes of two finite numbers, the second not zero, rounded once. -/
def quotient (x y : Binary64) : Binary64 :=
  let q := x.parts.2 - y.parts.2
  ofMagnitude false (Width.double.nearest (x.parts.1 * Nat.pow 2 q.toNat) (y.parts.1 * Nat.pow 2 (-q).toNat))

end Binary64

end TypedConfig

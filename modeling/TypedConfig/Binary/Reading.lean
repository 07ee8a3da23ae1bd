import TypedConfig.Binary.Binary64

/-!
# Reading a number

The written form is an optional sign and then a decimal with digits before or after the point and an
optional exponent, or one of the words for infinity and NaN in any letter case.
-/
namespace TypedConfig.Binary

/-- The value of a digit in base ten. -/
def digitValue (c : Char) : Nat := c.toNat - '0'.toNat

/-- The natural that decimal digits stand for. -/
def naturalOf (ds : List Char) : Nat := ds.foldl (fun n c => 10 * n + digitValue c) 0

/-- The leading digits of a text and the rest of it. -/
def spanDigits (cs : List Char) : List Char × List Char := cs.span Char.isDigit

/-- A sign, if one stands first (true for minus), and the rest. -/
def splitSign : List Char → Option Bool × List Char
  | '-' :: rest => (some true, rest)
  | '+' :: rest => (some false, rest)
  | cs => (none, cs)

/-- An unsigned decimal literal taken apart. -/
structure Literal where
  whole : List Char
  fraction : List Char
  exponent : Int

namespace Literal

/-- The digits of a literal as one natural. -/
def significand (l : Literal) : Nat := naturalOf (l.whole ++ l.fraction)

/-- The power of ten that the significand is counted in. -/
def scale (l : Literal) : Int := l.exponent - l.fraction.length

end Literal

/-- The exponent part that ends a literal: nothing, or a mark, an optional sign and digits. -/
def exponentOf? : List Char → Option Int
  | [] => some 0
  | c :: rest =>
    if c = 'e' ∨ c = 'E' then
      let (sign, ds) := splitSign rest
      if ds.isEmpty || !ds.all Char.isDigit then none
      else some (if sign = some true then -(naturalOf ds : Int) else naturalOf ds)
    else none

/-- An unsigned decimal: digits with at most one point and at least one digit, then an exponent. -/
def literal? (cs : List Char) : Option Literal :=
  let (whole, rest) := spanDigits cs
  let (fraction, tail) := match rest with
    | '.' :: more => spanDigits more
    | _ => ([], rest)
  if whole.isEmpty && fraction.isEmpty then none
  else (exponentOf? tail).map (⟨whole, fraction, ·⟩)

/-- What an unsigned text stands for. -/
inductive Magnitude where
  | decimal (literal : Literal)
  | infinity
  | nan

/-- Reads an unsigned number or one of the words `inf`, `infinity` and `nan`. -/
def magnitude? (cs : List Char) : Option Magnitude :=
  match literal? cs with
  | some l => some (.decimal l)
  | none =>
    match String.ofList (cs.map Char.toLower) with
    | "inf" => some .infinity
    | "infinity" => some .infinity
    | "nan" => some .nan
    | _ => none

end TypedConfig.Binary

namespace TypedConfig.Binary64
open TypedConfig.Binary

/-- The number of 64 bits that a text stands for. -/
def ofChars? (cs : List Char) : Option Binary64 :=
  let (sign, rest) := splitSign cs
  let negative := sign == some true
  (magnitude? rest).map fun
    | .decimal l => ofDecimal negative l.significand l.scale
    | .infinity => infinity negative
    | .nan => nan

/-- The number of 64 bits that equals the number of 32 bits that a text stands for. -/
def ofSingleChars? (cs : List Char) : Option Binary64 :=
  let (sign, rest) := splitSign cs
  let negative := sign == some true
  (magnitude? rest).map fun
    | .decimal l => ofSingle negative (Width.single.nearestDecimal l.significand l.scale)
    | .infinity => infinity negative
    | .nan => nan

end TypedConfig.Binary64

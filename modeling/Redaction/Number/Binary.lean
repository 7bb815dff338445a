/-!
# Finite binary floating-point numbers

A finite float is a sign and a natural significand times a power of two. Each value of a format has
exactly one such form, the canonical one, so equality of floats is equality of their parts; the two
zeros differ by their sign. Rounding works on exact fractions of natural numbers and goes to the
nearest value, a tie to the even significand.
-/

namespace Redaction.Number

/-- The size of a binary floating-point format. -/
structure BinaryFormat where
  /-- How many bits a significand has at most. -/
  precision : Nat
  /-- The exponent of the smallest positive value. -/
  minExponent : Int
  /-- The exponent of the largest values. -/
  maxExponent : Int
deriving DecidableEq, Repr

/-- Single precision: 24 bits. -/
def binary32 : BinaryFormat := ⟨24, -149, 104⟩

/-- Double precision: 53 bits. -/
def binary64 : BinaryFormat := ⟨53, -1074, 971⟩

/-- The one form in which a format writes `significand * 2 ^ exponent`: the significand uses all
bits, unless the exponent is already the smallest. -/
def BinaryFormat.Canonical (format : BinaryFormat) (significand : Nat) (exponent : Int) : Prop :=
  significand < Nat.pow 2 format.precision ∧ format.minExponent ≤ exponent ∧
    exponent ≤ format.maxExponent ∧
    (Nat.pow 2 (format.precision - 1) ≤ significand ∨ exponent = format.minExponent)

instance (format : BinaryFormat) (significand : Nat) (exponent : Int) :
    Decidable (format.Canonical significand exponent) :=
  inferInstanceAs (Decidable (_ ∧ _ ∧ _ ∧ (_ ∨ _)))

/-- A finite value of a binary floating-point format. -/
structure Binary (format : BinaryFormat) where
  /-- The sign, which zeros have too. -/
  negative : Bool
  /-- The whole number that the power of two scales. -/
  significand : Nat
  /-- The exponent of the power of two. -/
  exponent : Int
  /-- The parts are the canonical form of the value. -/
  canonical : format.Canonical significand exponent
deriving DecidableEq

/-- The quotient rounded to the nearest whole number, a tie to the even one. -/
def roundHalfEven (numerator denominator : Nat) : Nat :=
  let quotient := numerator / denominator
  let twice := 2 * (numerator % denominator)
  if denominator < twice ∨ (twice = denominator ∧ quotient % 2 = 1) then quotient + 1 else quotient

/-- The fraction `numerator / denominator` divided by `2 ^ exponent`. -/
def scaleDown (numerator denominator : Nat) (exponent : Int) : Nat × Nat :=
  if 0 ≤ exponent then (numerator, denominator * Nat.pow 2 exponent.toNat)
  else (numerator * Nat.pow 2 (-exponent).toNat, denominator)

/-- The whole part of the binary logarithm of a positive fraction. -/
def floorLog2 (numerator denominator : Nat) : Int :=
  let guess : Int := (numerator.log2 : Int) - denominator.log2
  let (above, below) := scaleDown numerator denominator guess
  if above < below then guess - 1 else guess

namespace BinaryFormat

/-- The significand and exponent nearest to a fraction, as if exponents had no upper end. -/
def nearest (format : BinaryFormat) (numerator denominator : Nat) : Nat × Int :=
  if numerator = 0 then (0, format.minExponent)
  else
    let leading := floorLog2 numerator denominator
    let exponent := max (leading - (format.precision - 1)) format.minExponent
    let (above, below) := scaleDown numerator denominator exponent
    let significand := roundHalfEven above below
    if significand = Nat.pow 2 format.precision then
      (Nat.pow 2 (format.precision - 1), exponent + 1)
    else (significand, exponent)

end BinaryFormat

namespace Binary

/-- The value with the given parts, if they are a canonical form. -/
def ofParts? (format : BinaryFormat) (negative : Bool) (significand : Nat) (exponent : Int) :
    Option (Binary format) :=
  if h : format.Canonical significand exponent then some ⟨negative, significand, exponent, h⟩
  else none

/-- The value nearest to a fraction; none where that value exceeds the format. -/
def ofFraction? (format : BinaryFormat) (negative : Bool) (numerator denominator : Nat) :
    Option (Binary format) :=
  let (significand, exponent) := format.nearest numerator denominator
  ofParts? format negative significand exponent

/-- The magnitude of a value as a fraction. -/
def fraction {format : BinaryFormat} (x : Binary format) : Nat × Nat :=
  scaleDown x.significand 1 (-x.exponent)

/-- The value with the sign given. -/
def withSign {format : BinaryFormat} (x : Binary format) (negative : Bool) : Binary format :=
  { x with negative }

/-- Whether the value is one of the two zeros. -/
def isZero {format : BinaryFormat} (x : Binary format) : Bool := x.significand == 0

/-- The rounded product of two magnitudes; none where it exceeds the format. -/
def mul? {format : BinaryFormat} (x y : Binary format) : Option (Binary format) :=
  ofFraction? format false (x.fraction.1 * y.fraction.1) (x.fraction.2 * y.fraction.2)

/-- The rounded quotient of two magnitudes; none where it exceeds the format. -/
def div? {format : BinaryFormat} (x y : Binary format) : Option (Binary format) :=
  ofFraction? format false (x.fraction.1 * y.fraction.2) (x.fraction.2 * y.fraction.1)

/-- The value nearest to `digits * 10 ^ exponent`; none where it exceeds the format. Powers of ten
that are out of all proportion are not computed: as `10 ^ n` is at least `2 ^ (3 * n)`, the exponent
alone shows that the value is too large, or below half of the smallest one. -/
def ofDecimal? (format : BinaryFormat) (negative : Bool) (digits : Nat) (exponent : Int) :
    Option (Binary format) :=
  if digits = 0 then ofFraction? format negative 0 1
  else if format.maxExponent + format.precision < 3 * exponent then none
  else if digits.log2 + 1 + 3 * exponent < format.minExponent then ofFraction? format negative 0 1
  else if 0 ≤ exponent then ofFraction? format negative (digits * Nat.pow 10 exponent.toNat) 1
  else ofFraction? format negative digits (Nat.pow 10 (-exponent).toNat)

/-- The same value in a format that can hold it. -/
def convert? {source : BinaryFormat} (target : BinaryFormat) (x : Binary source) :
    Option (Binary target) :=
  ofFraction? target x.negative x.fraction.1 x.fraction.2

end Binary

end Redaction.Number

import Redaction.Number.Binary

/-!
# The shortest decimal that names a float

A decimal names a float if it rounds to it. Among the decimals that name a float the shortest is a
multiple of the largest power of ten, and of those the one nearest to the float is taken, a tie
going to the even digit. All comparisons are between exact natural numbers.
-/

namespace Redaction.Number

/-- A decimal `digits * 10 ^ exponent`. -/
structure Decimal where
  /-- The digits, read as a whole number. -/
  digits : Nat
  /-- The exponent of the power of ten. -/
  exponent : Int
deriving DecidableEq, Repr

/-- The reals that round to a float, as numerators over one common denominator. -/
structure RoundingInterval where
  /-- The lower end. -/
  low : Nat
  /-- The value itself. -/
  value : Nat
  /-- The upper end. -/
  high : Nat
  /-- The common denominator. -/
  denominator : Nat
  /-- Whether the two ends round to the float as well. -/
  closed : Bool
deriving DecidableEq, Repr

namespace Binary

/-- The reals that round to a positive float reach halfway to its neighbours. The lower neighbour of
a power of two is only half as far away. The ends belong to the float if its significand is even. -/
def roundingInterval {format : BinaryFormat} (x : Binary format) : RoundingInterval :=
  let powerOfTwo := x.significand == Nat.pow 2 (format.precision - 1)
    && decide (format.minExponent < x.exponent)
  let quarters := 4 * x.significand
  let (unit, denominator) := scaleDown 1 4 (-x.exponent)
  { low := (if powerOfTwo then quarters - 1 else quarters - 2) * unit
    value := quarters * unit
    high := (quarters + 2) * unit
    denominator
    closed := x.significand % 2 == 0 }

end Binary

namespace RoundingInterval

/-- The interval measured in units of `10 ^ exponent`. -/
def inPowersOfTen (interval : RoundingInterval) (exponent : Int) : RoundingInterval :=
  if 0 ≤ exponent then
    { interval with denominator := interval.denominator * Nat.pow 10 exponent.toNat }
  else
    let scale := Nat.pow 10 (-exponent).toNat
    { interval with
      low := interval.low * scale
      value := interval.value * scale
      high := interval.high * scale }

/-- Whether a whole number of units lies in the interval. -/
def contains (interval : RoundingInterval) (units : Nat) : Bool :=
  let point := units * interval.denominator
  if interval.closed then decide (interval.low ≤ point) && decide (point ≤ interval.high)
  else decide (interval.low < point) && decide (point < interval.high)

/-- The whole number of units in the interval that is nearest to the value. If there is one at all,
one of the two next to the value is in the interval. -/
def nearestUnits? (interval : RoundingInterval) : Option Nat :=
  let below := interval.value / interval.denominator
  match interval.contains below && below != 0, interval.contains (below + 1) with
  | true, true => some (roundHalfEven interval.value interval.denominator)
  | true, false => some below
  | false, true => some (below + 1)
  | false, false => none

/-- The decimal of the interval whose exponent is the largest, looking at `steps` exponents from
`exponent` downwards. -/
def shortestFrom? (interval : RoundingInterval) : Nat → Int → Option Decimal
  | 0, _ => none
  | steps + 1, exponent =>
    match (interval.inPowersOfTen exponent).nearestUnits? with
    | some digits => some ⟨digits, exponent⟩
    | none => interval.shortestFrom? steps (exponent - 1)

end RoundingInterval

namespace Binary

/-- The decimal that equals a float exactly. -/
def exactDecimal {format : BinaryFormat} (x : Binary format) : Decimal :=
  if 0 ≤ x.exponent then ⟨x.significand * Nat.pow 2 x.exponent.toNat, 0⟩
  else ⟨x.significand * Nat.pow 5 (-x.exponent).toNat, x.exponent⟩

/-- An exponent so large that its power of ten exceeds the float: `30103 / 100000` is the decimal
logarithm of two to five places, and the sum allows for its error. -/
def exponentAbove {format : BinaryFormat} (x : Binary format) : Int :=
  (x.exponent + x.significand.log2 + 1) * 30103 / 100000 + 2

/-- The shortest decimal that names the magnitude of a float; zero is written with one digit. A
precision of `p` bits never needs more than `p / 3 + 2` digits. -/
def shortest {format : BinaryFormat} (x : Binary format) : Decimal :=
  if x.significand = 0 then ⟨0, 0⟩
  else
    match x.roundingInterval.shortestFrom? (format.precision / 3 + 6) x.exponentAbove with
    | some decimal => decimal
    | none => x.exactDecimal

end Binary

end Redaction.Number

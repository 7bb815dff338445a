import Mathlib.Algebra.Order.Field.Power
import Mathlib.Data.Rat.Cast.Order
import Mathlib.Tactic.FieldSimp
import Mathlib.Tactic.Linarith
import Mathlib.Tactic.LinearCombination
import Mathlib.Tactic.Positivity
import Mathlib.Tactic.Ring
import Redaction.Number.Shortest

/-!
# The shortest decimals of different floats are different

The reals that round to a float lie around it, up to halfway to its neighbours. The shortest decimal
of the float is one of them, and no real rounds to two floats. So the value of the decimal tells
which float it is, up to its sign.
-/

namespace Redaction.Number

/-- The value of a decimal. -/
def Decimal.size (decimal : Decimal) : ℚ := decimal.digits * 10 ^ decimal.exponent

/-- Dividing a fraction by a power of two. -/
theorem scaleDown_spec (numerator denominator : Nat) (exponent : Int) :
    ((scaleDown numerator denominator exponent).1 : ℚ) * denominator * 2 ^ exponent =
      numerator * (scaleDown numerator denominator exponent).2 := by
  unfold scaleDown
  split
  · next positive =>
    obtain ⟨n, rfl⟩ := Int.eq_ofNat_of_zero_le positive
    simp only [Int.toNat_natCast, Nat.pow_eq, zpow_natCast]
    push_cast
    ring
  · next negative =>
    obtain ⟨n, rfl⟩ : ∃ n : Nat, exponent = -n := ⟨(-exponent).toNat, by omega⟩
    simp only [neg_neg, Int.toNat_natCast, Nat.pow_eq, zpow_neg, zpow_natCast]
    push_cast
    field_simp

/-- The denominator stays positive. -/
theorem scaleDown_pos {numerator denominator : Nat} (positive : 0 < denominator) (exponent : Int) :
    0 < (scaleDown numerator denominator exponent).2 := by
  unfold scaleDown
  split
  · exact Nat.mul_pos positive (Nat.pow_pos (by decide))
  · exact positive

/-- Rounding goes to one of the two whole numbers next to a fraction. -/
theorem roundHalfEven_cases (numerator denominator : Nat) :
    roundHalfEven numerator denominator = numerator / denominator ∨
      roundHalfEven numerator denominator = numerator / denominator + 1 := by
  unfold roundHalfEven
  dsimp only
  split
  · exact .inr rfl
  · exact .inl rfl

namespace RoundingInterval

variable {interval : RoundingInterval}

/-- Whether a fraction lies in an interval. -/
def Has (interval : RoundingInterval) (r : ℚ) : Prop :=
  if interval.closed then
    interval.low ≤ r * interval.denominator ∧ r * interval.denominator ≤ interval.high
  else interval.low < r * interval.denominator ∧ r * interval.denominator < interval.high

/-- A whole number of units that is found in the interval lies in it. -/
theorem has_of_contains {units : Nat} (found : interval.contains units = true) :
    interval.Has units := by
  unfold contains at found
  unfold Has
  cases closed : interval.closed with
  | true =>
    rw [closed] at found
    simp only [if_true, Bool.and_eq_true, decide_eq_true_eq] at found ⊢
    exact_mod_cast found
  | false =>
    rw [closed] at found
    simp only [Bool.false_eq_true, if_false, Bool.and_eq_true, decide_eq_true_eq] at found ⊢
    exact_mod_cast found

/-- Measuring an interval in powers of ten measures what lies in it. -/
theorem has_inPowersOfTen {exponent : Int} {r : ℚ}
    (inside : (interval.inPowersOfTen exponent).Has r) : interval.Has (r * 10 ^ exponent) := by
  unfold inPowersOfTen at inside
  split at inside
  · next positive =>
    obtain ⟨n, rfl⟩ := Int.eq_ofNat_of_zero_le positive
    have scaled : r * (10 : ℚ) ^ (n : ℤ) * interval.denominator =
        r * ((interval.denominator * Nat.pow 10 n : Nat) : ℚ) := by
      rw [zpow_natCast, Nat.pow_eq]
      push_cast
      ring
    rw [Has, scaled]
    exact inside
  · next negative =>
    obtain ⟨n, rfl⟩ : ∃ n : Nat, exponent = -n := ⟨(-exponent).toNat, by omega⟩
    have power : (0 : ℚ) < 10 ^ n := by positivity
    have scaled : r * (10 : ℚ) ^ (-(n : ℤ)) * interval.denominator * 10 ^ n =
        r * interval.denominator := by
      rw [zpow_neg, zpow_natCast]
      field_simp
    simp only [Has, neg_neg, Int.toNat_natCast, Nat.pow_eq, Nat.cast_mul, Nat.cast_pow,
      Nat.cast_ofNat, ← scaled] at inside ⊢
    split
    · next closed =>
      rw [if_pos closed] at inside
      exact ⟨le_of_mul_le_mul_right inside.1 power, le_of_mul_le_mul_right inside.2 power⟩
    · next opened =>
      rw [if_neg opened] at inside
      exact ⟨lt_of_mul_lt_mul_right inside.1 power.le, lt_of_mul_lt_mul_right inside.2 power.le⟩

/-- The nearest whole number of units lies in the interval and is not zero. -/
theorem nearestUnits?_spec {units : Nat} (found : interval.nearestUnits? = some units) :
    interval.contains units = true ∧ 0 < units := by
  unfold nearestUnits? at found
  dsimp only at found
  generalize below : interval.value / interval.denominator = lower at found
  split at found
  · next first second =>
    obtain ⟨inside, solid⟩ := Bool.and_eq_true_iff.mp first
    have positive : 0 < lower := Nat.pos_of_ne_zero (bne_iff_ne.mp solid)
    obtain rfl := Option.some.inj found
    rcases roundHalfEven_cases interval.value interval.denominator with lowerOne | upperOne
    · rw [lowerOne, below]
      exact ⟨inside, positive⟩
    · rw [upperOne, below]
      exact ⟨second, Nat.succ_pos _⟩
  · next first second =>
    obtain ⟨inside, solid⟩ := Bool.and_eq_true_iff.mp first
    obtain rfl := Option.some.inj found
    exact ⟨inside, Nat.pos_of_ne_zero (bne_iff_ne.mp solid)⟩
  · next first second =>
    obtain rfl := Option.some.inj found
    exact ⟨second, Nat.succ_pos _⟩
  · cases found

/-- The decimal that is found lies in the interval and is not zero. -/
theorem shortestFrom?_spec {steps : Nat} {exponent : Int} {decimal : Decimal}
    (found : interval.shortestFrom? steps exponent = some decimal) :
    interval.Has decimal.size ∧ 0 < decimal.digits := by
  induction steps generalizing exponent with
  | zero => cases found
  | succ steps ih =>
    rw [shortestFrom?] at found
    split at found
    · next units nearest =>
      obtain rfl := Option.some.inj found
      obtain ⟨inside, positive⟩ := nearestUnits?_spec nearest
      exact ⟨has_inPowersOfTen (has_of_contains inside), positive⟩
    · exact ih found

end RoundingInterval

namespace Binary

variable {format : BinaryFormat} {x y : Binary format} {r : ℚ}

/-- The lower end of the reals that round to a float, in quarters of its last place. -/
def lowQuarters (x : Binary format) : Nat :=
  if x.significand = 2 ^ (format.precision - 1) ∧ format.minExponent < x.exponent then
    4 * x.significand - 1
  else 4 * x.significand - 2

/-- The unit in which the reals around a float are measured is a quarter of its last place. -/
theorem unit_spec (x : Binary format) :
    ((scaleDown 1 4 (-x.exponent)).1 : ℚ) * 4 =
      (scaleDown 1 4 (-x.exponent)).2 * 2 ^ x.exponent := by
  have power : (2 : ℚ) ^ x.exponent ≠ 0 := by positivity
  have scaled := scaleDown_spec 1 4 (-x.exponent)
  rw [zpow_neg, Nat.cast_one, one_mul] at scaled
  calc
    ((scaleDown 1 4 (-x.exponent)).1 : ℚ) * 4 =
        (scaleDown 1 4 (-x.exponent)).1 * (4 : Nat) * (2 ^ x.exponent)⁻¹ * 2 ^ x.exponent := by
      rw [inv_mul_cancel_right₀ power, Nat.cast_ofNat]
    _ = (scaleDown 1 4 (-x.exponent)).2 * 2 ^ x.exponent := by rw [scaled]

/-- Which reals round to a float. -/
theorem has_roundingInterval_iff (x : Binary format) (r : ℚ) :
    x.roundingInterval.Has r ↔
      if x.significand % 2 = 0 then
        x.lowQuarters * 2 ^ x.exponent ≤ 4 * r ∧ 4 * r ≤ (4 * x.significand + 2) * 2 ^ x.exponent
      else
        x.lowQuarters * 2 ^ x.exponent < 4 * r ∧
          4 * r < (4 * x.significand + 2) * 2 ^ x.exponent := by
  have power : (0 : ℚ) < 2 ^ x.exponent := by positivity
  have scaled := x.unit_spec
  have positive : (0 : ℚ) < (scaleDown 1 4 (-x.exponent)).2 :=
    Nat.cast_pos.mpr (scaleDown_pos (by decide) _)
  have low : x.roundingInterval.low = x.lowQuarters * (scaleDown 1 4 (-x.exponent)).1 := by
    simp only [roundingInterval, lowQuarters, Bool.and_eq_true, beq_iff_eq, decide_eq_true_eq,
      Nat.pow_eq]
  have high : x.roundingInterval.high =
    (4 * x.significand + 2) * (scaleDown 1 4 (-x.exponent)).1 := rfl
  have denominator : x.roundingInterval.denominator = (scaleDown 1 4 (-x.exponent)).2 := rfl
  have closed : x.roundingInterval.closed = (x.significand % 2 == 0) := rfl
  generalize (scaleDown 1 4 (-x.exponent)).1 = unit at *
  generalize (scaleDown 1 4 (-x.exponent)).2 = parts at *
  have measured (quarters : Nat) :
      4 * ((quarters * unit : Nat) : ℚ) = quarters * 2 ^ x.exponent * parts := by
    push_cast
    linear_combination (quarters : ℚ) * scaled
  have point : 4 * (r * parts) = 4 * r * parts := by ring
  have four : (0 : ℚ) < 4 := by norm_num
  have least (quarters : Nat) : ((quarters * unit : Nat) : ℚ) ≤ r * parts ↔
      quarters * 2 ^ x.exponent ≤ 4 * r := by
    rw [← mul_le_mul_iff_right₀ four, measured, point, mul_le_mul_iff_left₀ positive]
  have more (quarters : Nat) : ((quarters * unit : Nat) : ℚ) < r * parts ↔
      quarters * 2 ^ x.exponent < 4 * r := by
    rw [← mul_lt_mul_iff_right₀ four, measured, point, mul_lt_mul_iff_left₀ positive]
  have most (quarters : Nat) : r * parts ≤ ((quarters * unit : Nat) : ℚ) ↔
      4 * r ≤ quarters * 2 ^ x.exponent := by
    rw [← mul_le_mul_iff_right₀ four, measured, point, mul_le_mul_iff_left₀ positive]
  have less (quarters : Nat) : r * parts < ((quarters * unit : Nat) : ℚ) ↔
      4 * r < quarters * 2 ^ x.exponent := by
    rw [← mul_lt_mul_iff_right₀ four, measured, point, mul_lt_mul_iff_left₀ positive]
  rw [RoundingInterval.Has, low, high, denominator, closed, least, more, most, less]
  simp only [beq_iff_eq, Nat.cast_add, Nat.cast_mul, Nat.cast_ofNat]

/-- Whether a float is smaller than another, up to their signs. -/
def Below (x y : Binary format) : Prop :=
  x.exponent < y.exponent ∨ x.exponent = y.exponent ∧ x.significand < y.significand

/-- The lower end is at most half a place away. -/
theorem le_lowQuarters (y : Binary format) : 4 * y.significand - 2 ≤ y.lowQuarters := by
  unfold lowQuarters
  split <;> omega

/-- Where an exponent is not the smallest one, the lower end is just below that of the power of two
with that exponent. -/
theorem le_lowQuarters_of_lt (y : Binary format) (above : format.minExponent < y.exponent) :
    4 * 2 ^ (format.precision - 1) - 1 ≤ y.lowQuarters := by
  have leading : 2 ^ (format.precision - 1) ≤ y.significand := by
    rcases y.canonical.2.2.2 with large | smallest
    · exact large
    · exact absurd smallest above.ne'
  unfold lowQuarters
  split
  · next power => rw [power.1]
  · next other =>
    have larger : 2 ^ (format.precision - 1) ≠ y.significand :=
      fun same => other ⟨same.symm, above⟩
    omega

/-- The reals that round to a float end where those that round to another one begin, if not before;
and they end before if both floats have their ends. -/
def EndsBefore (x y : Binary format) : Prop :=
  (4 * x.significand + 2 : ℚ) * 2 ^ x.exponent ≤ y.lowQuarters * 2 ^ y.exponent ∧
    (x.significand % 2 = 0 → y.significand % 2 = 0 →
      (4 * x.significand + 2 : ℚ) * 2 ^ x.exponent < y.lowQuarters * 2 ^ y.exponent)

/-- The reals of a float end before those of one with a larger exponent. The largest significand of
an exponent is odd, so where the two meet, the end belongs to the other float only. -/
theorem endsBefore_of_exponent (bits : 0 < format.precision) (smaller : x.exponent < y.exponent) :
    x.EndsBefore y := by
  have power : (0 : ℚ) < 2 ^ x.exponent := by positivity
  have lowest : format.minExponent ≤ x.exponent := x.canonical.2.1
  have room : x.significand < 2 ^ format.precision := x.canonical.1
  have twice : 2 ^ format.precision = 2 * 2 ^ (format.precision - 1) := by
    rw [← Nat.pow_succ', Nat.succ_eq_add_one, Nat.sub_add_cancel bits]
  have leading := y.le_lowQuarters_of_lt (lowest.trans_lt smaller)
  have doubled : (2 : ℚ) * 2 ^ x.exponent ≤ 2 ^ y.exponent := by
    rw [← zpow_one_add₀ two_ne_zero]
    exact zpow_le_zpow_right₀ one_le_two (by omega)
  have reached : (y.lowQuarters * 2 : Nat) * (2 : ℚ) ^ x.exponent ≤
      y.lowQuarters * 2 ^ y.exponent := by
    calc
      ((y.lowQuarters * 2 : Nat) : ℚ) * 2 ^ x.exponent =
          y.lowQuarters * (2 * 2 ^ x.exponent) := by push_cast; ring
      _ ≤ y.lowQuarters * 2 ^ y.exponent :=
        mul_le_mul_of_nonneg_left doubled (Nat.cast_nonneg _)
  constructor
  · have places : 4 * x.significand + 2 ≤ y.lowQuarters * 2 := by omega
    refine (mul_le_mul_of_nonneg_right ?_ power.le).trans reached
    exact_mod_cast places
  · intro even _
    have places : 4 * x.significand + 2 < y.lowQuarters * 2 := by omega
    refine (mul_lt_mul_of_pos_right ?_ power).trans_le reached
    exact_mod_cast places

/-- The reals of a float end before those of one with the same exponent and a larger significand. Of
two significands that are next to each other only one is even. -/
theorem endsBefore_of_significand (same : x.exponent = y.exponent)
    (smaller : x.significand < y.significand) : x.EndsBefore y := by
  have power : (0 : ℚ) < 2 ^ x.exponent := by positivity
  have near := y.le_lowQuarters
  unfold EndsBefore
  rw [← same]
  constructor
  · have places : 4 * x.significand + 2 ≤ y.lowQuarters := by omega
    refine mul_le_mul_of_nonneg_right ?_ power.le
    exact_mod_cast places
  · intro even evenOther
    have places : 4 * x.significand + 2 < y.lowQuarters := by omega
    refine mul_lt_mul_of_pos_right ?_ power
    exact_mod_cast places

/-- No real rounds to a float and to a larger one. -/
theorem Below.not_has (bits : 0 < format.precision) (below : x.Below y)
    (inside : x.roundingInterval.Has r) : ¬ y.roundingInterval.Has r := by
  intro insideOther
  obtain ⟨upTo, before⟩ : x.EndsBefore y := by
    rcases below with smaller | ⟨same, smaller⟩
    · exact endsBefore_of_exponent bits smaller
    · exact endsBefore_of_significand same smaller
  rw [has_roundingInterval_iff] at inside insideOther
  split at inside
  · next even =>
    split at insideOther
    · next evenOther => linarith [inside.2, insideOther.1, before even evenOther]
    · linarith [inside.2, insideOther.1]
  · split at insideOther <;> linarith [inside.2, insideOther.1]

/-- Of two floats one is smaller, if they differ in more than their signs. -/
theorem below_or_below (x y : Binary format) :
    x.Below y ∨ y.Below x ∨ x.exponent = y.exponent ∧ x.significand = y.significand := by
  unfold Below
  omega

/-- The exact decimal of a float has its size. -/
theorem size_exactDecimal (x : Binary format) :
    x.exactDecimal.size = x.significand * 2 ^ x.exponent := by
  unfold exactDecimal Decimal.size
  split
  · next positive =>
    obtain ⟨n, exponent⟩ := Int.eq_ofNat_of_zero_le positive
    rw [exponent, Int.toNat_natCast, zpow_zero, mul_one, zpow_natCast, Nat.pow_eq]
    push_cast
    rfl
  · next negative =>
    obtain ⟨n, exponent⟩ : ∃ n : Nat, x.exponent = -n := ⟨(-x.exponent).toNat, by omega⟩
    have ten : (10 : ℚ) = 5 * 2 := by norm_num
    have power : (5 : ℚ) ^ n ≠ 0 := by positivity
    rw [exponent, neg_neg, Int.toNat_natCast, Nat.pow_eq, zpow_neg, zpow_neg, zpow_natCast,
      zpow_natCast, ten, mul_pow, mul_inv]
    push_cast
    rw [mul_assoc, mul_inv_cancel_left₀ power]

/-- A float is among the reals that round to it. -/
theorem has_roundingInterval_self (x : Binary format) (positive : 0 < x.significand) :
    x.roundingInterval.Has (x.significand * 2 ^ x.exponent) := by
  have power : (0 : ℚ) < 2 ^ x.exponent := by positivity
  have low : x.lowQuarters < 4 * x.significand := by
    unfold lowQuarters
    split <;> omega
  have lower : (x.lowQuarters : ℚ) * 2 ^ x.exponent < 4 * (x.significand * 2 ^ x.exponent) := by
    rw [← mul_assoc]
    refine mul_lt_mul_of_pos_right ?_ power
    exact_mod_cast low
  have upper : 4 * (x.significand * (2 : ℚ) ^ x.exponent) <
      (4 * x.significand + 2) * 2 ^ x.exponent := by linarith
  rw [has_roundingInterval_iff]
  split
  · exact ⟨lower.le, upper.le⟩
  · exact ⟨lower, upper⟩

/-- The shortest decimal of a positive float rounds to it and is not zero. -/
theorem shortest_spec (x : Binary format) (positive : 0 < x.significand) :
    x.roundingInterval.Has x.shortest.size ∧ 0 < x.shortest.digits := by
  unfold shortest
  rw [if_neg positive.ne']
  split
  · next decimal found => exact RoundingInterval.shortestFrom?_spec found
  · constructor
    · rw [size_exactDecimal]
      exact x.has_roundingInterval_self positive
    · unfold exactDecimal
      split <;> exact Nat.mul_pos positive (Nat.pow_pos (by decide))

/-- Only zero has a shortest decimal of size zero. -/
theorem significand_eq_zero_of_shortest (x : Binary format) (zero : x.shortest.size = 0) :
    x.significand = 0 := by
  by_contra solid
  have digits := (x.shortest_spec (Nat.pos_of_ne_zero solid)).2
  have large : (0 : ℚ) < x.shortest.size := by
    unfold Decimal.size
    positivity
  exact large.ne' zero

/-- Zero has the smallest exponent. -/
theorem exponent_of_zero (x : Binary format) (zero : x.significand = 0) :
    x.exponent = format.minExponent := by
  rcases x.canonical.2.2.2 with large | smallest
  · rw [zero] at large
    exact absurd large (Nat.not_le.mpr (Nat.pow_pos (by decide)))
  · exact smallest

/-- The size of its shortest decimal and its sign tell which float it is. -/
theorem eq_of_size_shortest (bits : 0 < format.precision) (sign : x.negative = y.negative)
    (same : x.shortest.size = y.shortest.size) : x = y := by
  have parts : x.exponent = y.exponent ∧ x.significand = y.significand := by
    by_cases zero : x.significand = 0
    · have size : x.shortest.size = 0 := by
        rw [shortest, if_pos zero, Decimal.size, Nat.cast_zero, zero_mul]
      have other := y.significand_eq_zero_of_shortest (same ▸ size)
      exact ⟨by rw [x.exponent_of_zero zero, y.exponent_of_zero other], by rw [zero, other]⟩
    · have inside := (x.shortest_spec (Nat.pos_of_ne_zero zero)).1
      have solid : y.significand ≠ 0 := by
        intro other
        have size : y.shortest.size = 0 := by
          rw [shortest, if_pos other, Decimal.size, Nat.cast_zero, zero_mul]
        exact zero (x.significand_eq_zero_of_shortest (same.trans size))
      have insideOther := (y.shortest_spec (Nat.pos_of_ne_zero solid)).1
      rw [← same] at insideOther
      rcases x.below_or_below y with smaller | larger | equal
      · exact absurd insideOther (smaller.not_has bits inside)
      · exact absurd inside (larger.not_has bits insideOther)
      · exact equal
  obtain ⟨negative, significand, exponent, canonical⟩ := x
  obtain ⟨negativeOther, significandOther, exponentOther, canonicalOther⟩ := y
  obtain ⟨rfl, rfl⟩ := parts
  cases sign
  rfl

end Binary

end Redaction.Number

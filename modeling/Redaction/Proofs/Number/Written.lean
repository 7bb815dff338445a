import Redaction.Number.Basic
import Redaction.Proofs.Number.Apart
import Redaction.Proofs.Number.Numeral

/-!
# Different numbers are written differently

The text of a number is one literal. A whole number is the literal without a point and a power of
ten. The literal of a float has one of the two, and it has the size of the shortest decimal, however
the places are laid out. So the literal tells the number.
-/

namespace Redaction.Number

/-- The digits behind a point, if there is one. -/
def pointText : Option (List Char) → List Char
  | none => []
  | some fraction => '.' :: fraction

/-- A power of ten as floats are written with one, if there is one. -/
def powerText : Option Int → List Char
  | none => []
  | some power => 'e' :: (if power < 0 then '-' else '+') :: naturalText power.natAbs

section Reading

/-- A power of ten begins with no digit. -/
theorem spanDigits_powerText (power : Option Int) :
    spanDigits (powerText power) = ([], powerText power) := by
  cases power <;> rfl

/-- A power of ten is read. -/
theorem readExponent_powerText (power : Option Int) :
    readExponent (powerText power) = .ok (power, []) := by
  cases power with
  | none => rfl
  | some power =>
    have behind : spanDigits [] = ([], []) := rfl
    have digits : someDigits (naturalText power.natAbs) =
        .ok (digitValues (naturalText power.natAbs), []) := by
      have taken := someDigits_digits_append (isDigit_naturalText power.natAbs)
        Nat.toDigits_ne_nil behind
      rwa [List.append_nil] at taken
    have magnitude : ofDigits (digitValues (naturalText power.natAbs)) = power.natAbs :=
      ofDigits_naturalText _
    by_cases negative : power < 0
    · have opposite : -(power.natAbs : Int) = power := by omega
      rw [powerText, if_pos negative, readExponent, if_pos (.inl rfl)]
      simp only [digits]
      show Except.ok (some (-(ofDigits _ : Int)), []) = _
      rw [magnitude, opposite]
    · have same : (power.natAbs : Int) = power := by omega
      rw [powerText, if_neg negative, readExponent, if_pos (.inl rfl)]
      simp only [digits]
      show Except.ok (some (ofDigits _ : Int), []) = _
      rw [magnitude, same]

/-- A fraction and a power of ten are read. -/
theorem readFraction_pointText {point : Option (List Char)}
    (digits : ∀ fraction ∈ point, fraction ≠ [] ∧ ∀ c ∈ fraction, c.isDigit = true)
    (power : Option Int) :
    readFraction (pointText point ++ powerText power) =
      .ok (point.map digitValues, powerText power) := by
  cases point with
  | none =>
    cases power with
    | none => rfl
    | some power => exact readFraction_of_ne (by decide) _
  | some fraction =>
    obtain ⟨nonempty, digits⟩ := digits fraction rfl
    have taken := someDigits_digits_append digits nonempty (spanDigits_powerText power)
    rw [pointText, List.cons_append, readFraction, taken]
    rfl

/-- The parts of a literal are read as they are written. -/
theorem readParts_written (negative : Bool) {whole : List Char} {point : Option (List Char)}
    (digits : ∀ c ∈ whole, c.isDigit = true) (leads : Leads whole)
    (pointDigits : ∀ fraction ∈ point, fraction ≠ [] ∧ ∀ c ∈ fraction, c.isDigit = true)
    (power : Option Int) :
    readParts negative (whole ++ (pointText point ++ powerText power)) =
      .ok (⟨negative, digitValues whole, point.map digitValues, power⟩, []) := by
  have stops : spanDigits (pointText point ++ powerText power) =
      ([], pointText point ++ powerText power) := by
    cases point with
    | none => exact spanDigits_powerText power
    | some fraction => rfl
  rw [readParts, readWhole_digits_append digits leads stops]
  show (readFraction _ >>= fun _ => _) = _
  rw [readFraction_pointText pointDigits]
  show (readExponent _ >>= fun _ => _) = _
  rw [readExponent_powerText]
  rfl

end Reading

section Size

/-- Digits in front of other digits are worth more by a power of ten. -/
theorem ofDigits_append (digits others : List Nat) :
    ofDigits (digits ++ others) = ofDigits digits * 10 ^ others.length + ofDigits others := by
  induction others using List.reverseRecOn with
  | nil => simp [ofDigits]
  | append_singleton others d ih =>
    have last (digits : List Nat) : ofDigits (digits ++ [d]) = 10 * ofDigits digits + d := by
      simp [ofDigits]
    rw [← List.append_assoc, last, last, ih, List.length_append, List.length_singleton, pow_succ]
    ring

/-- A row of zeros is worth nothing. -/
theorem ofDigits_zeros (count : Nat) : ofDigits (digitValues (List.replicate count '0')) = 0 := by
  induction count with
  | zero => rfl
  | succ count ih =>
    rw [digitValues] at ih ⊢
    rw [List.replicate_succ', List.map_append, ofDigits_append, ih]
    rfl

/-- The value of a literal without its sign. -/
def Literal.size (literal : Literal) : ℚ :=
  ofDigits (literal.whole ++ literal.fraction.getD []) *
    10 ^ (literal.exponent.getD 0 - (literal.fraction.getD []).length)

/-- A literal has the value of a decimal if its digits are those of the decimal with some zeros
behind, and the point and the power of ten make up for these. -/
theorem size_written {decimal : Decimal} {whole : List Char} {point : Option (List Char)}
    {power : Option Int} (zeros : Nat)
    (value : ofDigits (digitValues (whole ++ point.getD [])) = decimal.digits * 10 ^ zeros)
    (places : zeros + power.getD 0 - (point.getD []).length = decimal.exponent) (negative : Bool) :
    (Literal.mk negative (digitValues whole) (point.map digitValues) power).size =
      decimal.size := by
  have digits : digitValues (whole ++ point.getD []) =
      digitValues whole ++ (point.map digitValues).getD [] := by
    rw [digitValues, List.map_append]
    cases point <;> rfl
  have length : ((point.map digitValues).getD []).length = (point.getD []).length := by
    cases point with
    | none => rfl
    | some fraction => exact List.length_map _
  have scale : (10 : ℚ) ^ zeros * 10 ^ (power.getD 0 - (point.getD []).length) =
      10 ^ decimal.exponent := by
    rw [← places, ← zpow_natCast, ← zpow_add₀ (by norm_num)]
    congr 1
    omega
  rw [Literal.size, Decimal.size, ← digits, length, value, Nat.cast_mul, Nat.cast_pow,
    Nat.cast_ofNat, mul_assoc, scale]

end Size

section Layout

/-- A natural number with zeros around it is written with digits only. -/
theorem isDigit_padded {before after n : Nat} : ∀ c ∈ List.replicate before '0' ++ naturalText n ++
    List.replicate after '0', c.isDigit = true := by
  intro c present
  rcases List.mem_append.mp present with front | zero
  · rcases List.mem_append.mp front with zero | digit
    · rw [List.eq_of_mem_replicate zero]
      rfl
    · exact isDigit_naturalText n c digit
  · rw [List.eq_of_mem_replicate zero]
    rfl

/-- Zeros in front of a natural number do not count, and those behind it are powers of ten. -/
theorem ofDigits_padded (before after n : Nat) :
    ofDigits (digitValues (List.replicate before '0' ++ naturalText n ++
      List.replicate after '0')) = n * 10 ^ after := by
  have front := ofDigits_zeros before
  have behind := ofDigits_zeros after
  have value : ofDigits (digitValues (naturalText n)) = n := ofDigits_naturalText n
  simp only [digitValues] at front behind value ⊢
  rw [List.map_append, List.map_append, ofDigits_append, ofDigits_append, front, behind, value,
    List.length_map, List.length_map, List.length_replicate, Nat.zero_mul, Nat.zero_add,
    Nat.add_zero]

namespace Decimal

variable {decimal : Decimal}

/-- Whether a text is read as a literal that has the value of a decimal and is no whole number. -/
def Spelled (decimal : Decimal) (text : List Char) : Prop :=
  ∀ negative, ∃ literal : Literal, readParts negative text = .ok (literal, []) ∧
    literal.negative = negative ∧ literal.size = decimal.size ∧ literal.integer? = none

/-- Digits with a point, a power of ten or both spell a decimal. -/
theorem spelled_written {whole : List Char} {point : Option (List Char)} {power : Option Int}
    (digits : ∀ c ∈ whole ++ point.getD [], c.isDigit = true) (leads : Leads whole)
    (nonempty : point ≠ some []) (marked : point ≠ none ∨ power ≠ none) (zeros : Nat)
    (value : ofDigits (digitValues (whole ++ point.getD [])) = decimal.digits * 10 ^ zeros)
    (places : zeros + power.getD 0 - (point.getD []).length = decimal.exponent) :
    decimal.Spelled (whole ++ (pointText point ++ powerText power)) := by
  intro negative
  have wholeDigits : ∀ c ∈ whole, c.isDigit = true := fun c present =>
    digits c (List.mem_append_left _ present)
  have pointDigits : ∀ fraction ∈ point, fraction ≠ [] ∧ ∀ c ∈ fraction, c.isDigit = true := by
    rintro fraction rfl
    exact ⟨fun empty => nonempty (by rw [empty]), fun c present =>
      digits c (List.mem_append_right _ present)⟩
  refine ⟨_, readParts_written negative wholeDigits leads pointDigits power, rfl,
    size_written zeros value places negative, ?_⟩
  cases point with
  | some fraction => rfl
  | none =>
    cases power with
    | some power => rfl
    | none => exact absurd marked (by simp)

/-- Below one the digits stand behind a point and zeros. -/
theorem spelled_of_small (small : decimal.leadingExponent < 0) :
    decimal.Spelled ('0' :: '.' ::
      (List.replicate (-decimal.leadingExponent - 1).toNat '0' ++ naturalText decimal.digits)) := by
  generalize count : (-decimal.leadingExponent - 1).toNat = zeros
  have all : ['0'] ++ (some (List.replicate zeros '0' ++ naturalText decimal.digits)).getD [] =
      List.replicate (zeros + 1) '0' ++ naturalText decimal.digits ++ List.replicate 0 '0' := by
    rw [List.replicate_succ, List.replicate_zero, List.append_nil]
    rfl
  have text : '0' :: '.' :: (List.replicate zeros '0' ++ naturalText decimal.digits) =
      ['0'] ++ (pointText (some (List.replicate zeros '0' ++ naturalText decimal.digits)) ++
        powerText none) := by
    rw [powerText, List.append_nil]
    rfl
  rw [text]
  refine spelled_written ?_ (leads_naturalText 0) ?_ (.inl (Option.some_ne_none _)) 0 ?_ ?_
  · rw [all]
    exact isDigit_padded
  · intro empty
    exact Nat.toDigits_ne_nil (List.append_eq_nil_iff.mp (Option.some.inj empty)).2
  · rw [all]
    exact ofDigits_padded _ _ _
  · rw [Option.getD_some, Option.getD_none, List.length_append, List.length_replicate]
    unfold leadingExponent at small count
    omega

/-- Above the last digit the places are zeros. -/
theorem spelled_of_whole (plain : decimal.digits = 0 → decimal.exponent = 0)
    (large : ¬ decimal.leadingExponent < 0)
    (short : (naturalText decimal.digits).length ≤ decimal.leadingExponent.toNat + 1) :
    decimal.Spelled (naturalText decimal.digits ++
      List.replicate (decimal.leadingExponent.toNat + 1 - (naturalText decimal.digits).length) '0'
        ++ ['.', '0']) := by
  generalize count : decimal.leadingExponent.toNat + 1 - (naturalText decimal.digits).length = zeros
  have exponent : (zeros : Int) = decimal.exponent := by
    unfold leadingExponent at large short count
    omega
  have all : naturalText decimal.digits ++ List.replicate zeros '0' ++ (some ['0']).getD [] =
      List.replicate 0 '0' ++ naturalText decimal.digits ++ List.replicate (zeros + 1) '0' := by
    rw [List.replicate_succ', List.replicate_zero, List.nil_append, List.append_assoc]
    rfl
  have leads : Leads (naturalText decimal.digits ++ List.replicate zeros '0') := by
    rcases Nat.eq_zero_or_pos decimal.digits with zero | positive
    · have none : zeros = 0 := by
        have unit := plain zero
        omega
      rw [none, List.replicate_zero, List.append_nil]
      exact leads_naturalText _
    · exact leads_naturalText_append positive _
  have text : ['.', '0'] = pointText (some ['0']) ++ powerText none := rfl
  rw [text]
  refine spelled_written ?_ leads (by simp) (.inl (Option.some_ne_none _)) (zeros + 1) ?_ ?_
  · rw [all]
    exact isDigit_padded
  · rw [all]
    exact ofDigits_padded _ _ _
  · rw [Option.getD_some, Option.getD_none, List.length_singleton]
    omega

/-- The first few of many digits have no zero in front. -/
theorem leads_take {n before : Nat} (solid : 0 < before)
    (long : before < (naturalText n).length) : Leads ((naturalText n).take before) := by
  rcases Nat.eq_zero_or_pos n with rfl | positive
  · exact absurd (Nat.lt_of_lt_of_le long solid) (Nat.lt_irrefl _)
  · obtain ⟨c, rest, digits, nonzero⟩ := head_naturalText_ne positive
    obtain ⟨before, rfl⟩ := Nat.exists_eq_succ_of_ne_zero solid.ne'
    rw [digits]
    exact ⟨List.cons_ne_nil _ _, .inr fun zero => nonzero (Option.some.inj zero)⟩

/-- A point among the digits, and perhaps a power of ten. -/
theorem spelled_of_split {before : Nat} {power : Option Int} (solid : 0 < before)
    (long : before < (naturalText decimal.digits).length)
    (places : power.getD 0 + before = (naturalText decimal.digits).length + decimal.exponent) :
    decimal.Spelled ((naturalText decimal.digits).take before ++
      (pointText (some ((naturalText decimal.digits).drop before)) ++ powerText power)) := by
  have all : (naturalText decimal.digits).take before ++
      (some ((naturalText decimal.digits).drop before)).getD [] = naturalText decimal.digits :=
    List.take_append_drop _ _
  have value : ofDigits (digitValues (naturalText decimal.digits)) = decimal.digits :=
    ofDigits_naturalText _
  refine spelled_written ?_ (leads_take solid long) ?_ (.inl (Option.some_ne_none _)) 0 ?_ ?_
  · rw [all]
    exact isDigit_naturalText _
  · intro empty
    exact absurd (List.drop_eq_nil_iff.mp (Option.some.inj empty)) (Nat.not_le.mpr long)
  · rw [all, value, pow_zero, mul_one]
  · rw [Option.getD_some, List.length_drop]
    omega

/-- All places laid out spell a decimal. -/
theorem spelled_positionalText (plain : decimal.digits = 0 → decimal.exponent = 0) :
    decimal.Spelled decimal.positionalText := by
  unfold positionalText
  dsimp only
  split
  · next small => exact spelled_of_small small
  next large =>
  split
  · next short => exact spelled_of_whole plain large short
  · next long =>
    have places : (none : Option Int).getD 0 + (decimal.leadingExponent.toNat + 1 : Nat) =
        (naturalText decimal.digits).length + decimal.exponent := by
      rw [Option.getD_none]
      unfold leadingExponent at large ⊢
      omega
    have split := spelled_of_split (Nat.succ_pos _) (Nat.not_le.mp long) places
    rwa [powerText, List.append_nil] at split

/-- A single digit and a power of ten. -/
theorem spelled_of_single {c : Char} (single : naturalText decimal.digits = [c]) :
    decimal.Spelled (naturalText decimal.digits ++
      (pointText none ++ powerText (some decimal.leadingExponent))) := by
  have length : (naturalText decimal.digits).length = 1 := by rw [single]; rfl
  have value : ofDigits (digitValues (naturalText decimal.digits)) = decimal.digits :=
    ofDigits_naturalText _
  refine spelled_written ?_ (leads_naturalText _) (Option.some_ne_none _).symm
    (.inr (Option.some_ne_none _)) 0 ?_ ?_
  · rw [Option.getD_none, List.append_nil]
    exact isDigit_naturalText _
  · rw [Option.getD_none, List.append_nil, value, pow_zero, mul_one]
  · rw [Option.getD_none, Option.getD_some, List.length_nil]
    unfold leadingExponent
    omega

/-- One digit in front of the point and a power of ten spell a decimal. -/
theorem spelled_exponentText (decimal : Decimal) : decimal.Spelled decimal.exponentText := by
  unfold exponentText
  dsimp only
  split
  · next first second rest digits =>
    have length : (naturalText decimal.digits).length = rest.length + 2 := by rw [digits]; rfl
    have places : (some decimal.leadingExponent).getD 0 + (1 : Nat) =
        (naturalText decimal.digits).length + decimal.exponent := by
      rw [Option.getD_some]
      unfold leadingExponent
      omega
    have split := spelled_of_split Nat.one_pos (by omega) places
    rwa [digits] at split
  · next short =>
    cases digits : naturalText decimal.digits with
    | nil => exact absurd digits Nat.toDigits_ne_nil
    | cons c rest =>
      cases rest with
      | nil =>
        rw [← digits]
        exact spelled_of_single digits
      | cons second rest => exact absurd digits (short c second rest)

/-- The text of a decimal spells it, in any layout. -/
theorem spelled_text (layout : DecimalLayout) (plain : decimal.digits = 0 → decimal.exponent = 0) :
    decimal.Spelled (decimal.text layout) := by
  unfold text
  split
  · exact spelled_positionalText plain
  · exact spelled_exponentText decimal

end Decimal

end Layout

section Numbers

/-- A zero is written with the exponent zero. -/
theorem Binary.exponent_shortest {format : BinaryFormat} (x : Binary format)
    (zero : x.shortest.digits = 0) : x.shortest.exponent = 0 := by
  by_cases positive : 0 < x.significand
  · exact absurd zero (x.shortest_spec positive).2.ne'
  · rw [Binary.shortest, if_pos (Nat.eq_zero_of_not_pos positive)]

/-- Whether a literal is the way in which a number is written. -/
def Literal.Writes (literal : Literal) : Number → Prop
  | .integer n => literal.integer? = some n
  | .float x => literal.negative = x.negative ∧ literal.size = x.shortest.size ∧
      literal.integer? = none

/-- The text of a number is read as a literal that is the way in which it is written. -/
theorem exists_literal (number : Number) :
    ∃ literal : Literal, readLiteral number.text = .ok (literal, []) ∧ literal.Writes number := by
  cases number with
  | integer n => exact ⟨_, readLiteral_integerText n.value, integer?_of_naturalText n⟩
  | float x =>
    have spelled := Decimal.spelled_text doubleLayout x.exponent_shortest
    obtain ⟨literal, read, sign, size, noInteger⟩ := spelled x.negative
    refine ⟨literal, ?_, sign, size, noInteger⟩
    show readLiteral (x.text doubleLayout) = _
    cases negative : x.negative with
    | true =>
      rw [negative] at read
      rw [Binary.text, if_pos negative]
      exact read
    | false =>
      rw [negative] at read
      rw [Binary.text, negative, if_neg Bool.false_ne_true]
      exact readLiteral_of_readParts read

/-- A literal is the way in which one number is written, and one only. -/
theorem Literal.Writes.unique {literal : Literal} {number other : Number}
    (writes : literal.Writes number) (writesOther : literal.Writes other) : number = other := by
  cases number with
  | integer n =>
    cases other with
    | integer m => exact congrArg Number.integer (Option.some.inj (writes.symm.trans writesOther))
    | float y => exact absurd (writes.symm.trans writesOther.2.2) (Option.some_ne_none _)
  | float x =>
    cases other with
    | integer m => exact absurd (writesOther.symm.trans writes.2.2) (Option.some_ne_none _)
    | float y =>
      exact congrArg Number.float (Binary.eq_of_size_shortest (by decide)
        (writes.1.symm.trans writesOther.1) (writes.2.1.symm.trans writesOther.2.1))

/-- The text of a number begins with a minus sign or a digit. -/
theorem exists_cons_text (number : Number) :
    ∃ c later, number.text = c :: later ∧ (c = '-' ∨ c.isDigit = true) := by
  obtain ⟨literal, read, _⟩ := exists_literal number
  exact exists_cons_of_readLiteral read

/-- Where numbers end, their texts tell them. -/
theorem text_append_inj {number other : Number} {rest left : List Char} (ends : EndsNumber rest)
    (endsOther : EndsNumber left) (same : number.text ++ rest = other.text ++ left) :
    number = other ∧ rest = left := by
  obtain ⟨literal, read, writes⟩ := exists_literal number
  obtain ⟨literalOther, readOther, writesOther⟩ := exists_literal other
  have whole := local_readLiteral number.text literal [] rest ends read
  have wholeOther := local_readLiteral other.text literalOther [] left endsOther readOther
  rw [same, wholeOther] at whole
  obtain ⟨rfl, rfl⟩ : literalOther = literal ∧ left = rest := by
    simpa using Except.ok.inj whole
  exact ⟨writes.unique writesOther, rfl⟩

end Numbers

end Redaction.Number

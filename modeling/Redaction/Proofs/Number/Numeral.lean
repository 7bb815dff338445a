import Redaction.Number.Literal

/-!
# Numbers with a text behind them

The reader of a number takes as many characters as it can. What it makes of a text is therefore the
same with more text behind it, as long as that begins with no character which could continue the
number. And the text of a whole number is read as that number.
-/

namespace Redaction.Number

/-- Whether a character can stand in a number behind the first digit of one of its parts. -/
def continuesNumber (c : Char) : Bool := c.isDigit || c == '.' || c == 'e' || c == 'E'

/-- A number that is read in front of the text ends there. -/
def EndsNumber (rest : List Char) : Prop := ∀ c ∈ rest.head?, continuesNumber c = false

/-- A number ends where the text ends. -/
theorem endsNumber_nil : EndsNumber [] := by rintro _ ⟨⟩

/-- A number ends in front of a character that cannot continue it. -/
theorem endsNumber_cons {c : Char} (stops : continuesNumber c = false) (rest : List Char) :
    EndsNumber (c :: rest) := by
  rintro other ⟨⟩
  exact stops

/-- A reader that succeeds yields the same with more text behind, and leaves that text. -/
def Local {ε α : Type} (reader : List Char → Except ε (α × List Char)) : Prop :=
  ∀ text value left rest, EndsNumber rest → reader text = .ok (value, left) →
    reader (text ++ rest) = .ok (value, left ++ rest)

section Local

variable {ε α β : Type}

/-- Reading one thing after the other is as local as the two readers are. -/
theorem Local.bind {first : List Char → Except ε (α × List Char)}
    {next : α → List Char → Except ε (β × List Char)} (early : Local first)
    (late : ∀ value, Local (next value)) :
    Local fun text => first text >>= fun read => next read.1 read.2 := by
  intro text value left rest ends read
  dsimp only at read ⊢
  cases taken : first text with
  | error fault =>
    rw [taken] at read
    cases read
  | ok pair =>
    rw [taken] at read
    have before : first (text ++ rest) = .ok (pair.1, pair.2 ++ rest) :=
      early text pair.1 pair.2 rest ends taken
    have behind : next pair.1 (pair.2 ++ rest) = .ok (value, left ++ rest) :=
      late pair.1 pair.2 value left rest ends read
    rw [before]
    exact behind

/-- A reader that takes nothing is local. -/
theorem local_pure (value : β) :
    Local fun text => (Except.ok (value, text) : Except ε (β × List Char)) := by
  intro text other left rest _ read
  cases read
  rfl

end Local

/-- A character is a decimal digit exactly if it has the value of one. -/
theorem digit?_eq (c : Char) :
    digit? c = if c.isDigit then some (c.toNat - '0'.toNat) else none := by
  have same : ('0' ≤ c ∧ c ≤ '9') ↔ c.isDigit = true := by
    simp only [Char.isDigit, Char.le_def, ge_iff_le, Bool.and_eq_true, decide_eq_true_eq]
  simp only [digit?, same]

/-- A number that ends in front of a text is followed by no digit. -/
theorem spanDigits_of_ends {rest : List Char} (ends : EndsNumber rest) :
    spanDigits rest = ([], rest) := by
  cases rest with
  | nil => rfl
  | cons c later =>
    have stops : continuesNumber c = false := ends c rfl
    have noDigit : c.isDigit = false := by
      simp only [continuesNumber, Bool.or_eq_false_iff] at stops
      exact stops.1.1.1
    simp only [spanDigits, digit?_eq, noDigit, Bool.false_eq_true, if_false]

/-- The digits at the beginning of a text are the same with more text behind. -/
theorem spanDigits_append {rest : List Char} (ends : EndsNumber rest) (text : List Char) :
    spanDigits (text ++ rest) = ((spanDigits text).1, (spanDigits text).2 ++ rest) := by
  induction text with
  | nil => exact spanDigits_of_ends ends
  | cons c later ih =>
    rw [List.cons_append, spanDigits, spanDigits]
    cases digit? c with
    | none => rfl
    | some d => simp only [ih]

/-- The reader of digits is local. -/
theorem local_someDigits : Local someDigits := by
  intro text value left rest ends read
  simp only [someDigits] at read ⊢
  rw [spanDigits_append ends]
  cases found : spanDigits text with
  | mk digits later =>
    rw [found] at read
    cases digits with
    | nil => cases later <;> cases read
    | cons d digits => cases read; rfl

/-- The reader of a whole part is local. -/
theorem local_readWhole : Local readWhole := by
  intro text value left rest ends read
  cases found : someDigits text with
  | error fault =>
    simp only [readWhole, found] at read
    cases read
  | ok pair =>
    obtain ⟨digits, later⟩ := pair
    have before : someDigits (text ++ rest) = .ok (digits, later ++ rest) :=
      local_someDigits text digits later rest ends found
    simp only [readWhole, found] at read
    simp only [readWhole, before]
    match digits, read with
    | [], read => cases read; rfl
    | [0], read => cases read; rfl
    | [_ + 1], read => cases read; rfl
    | 0 :: _ :: _, read => cases read
    | (_ + 1) :: _ :: _, read => cases read; rfl

/-- Without a point there is no fraction. -/
theorem readFraction_of_ne {c : Char} (other : c ≠ '.') (text : List Char) :
    readFraction (c :: text) = .ok (none, c :: text) := by
  unfold readFraction
  split
  · next same => exact absurd (List.cons.inj same).1 other
  · rfl

/-- No fraction begins where a number ends. -/
theorem readFraction_of_ends {rest : List Char} (ends : EndsNumber rest) :
    readFraction rest = .ok (none, rest) := by
  cases rest with
  | nil => rfl
  | cons c later =>
    have stops : continuesNumber c = false := ends c rfl
    refine readFraction_of_ne ?_ later
    rintro rfl
    cases stops

/-- The reader of a fraction is local. -/
theorem local_readFraction : Local readFraction := by
  intro text value left rest ends read
  match text with
  | [] =>
    cases read
    exact readFraction_of_ends ends
  | c :: later =>
    by_cases pointed : c = '.'
    · subst pointed
      exact local_someDigits.bind (fun digits => local_pure (some digits))
        later value left rest ends read
    · rw [readFraction_of_ne pointed] at read
      rw [List.cons_append, readFraction_of_ne pointed]
      cases read
      rfl

/-- No exponent begins where a number ends. -/
theorem readExponent_of_ends {rest : List Char} (ends : EndsNumber rest) :
    readExponent rest = .ok (none, rest) := by
  cases rest with
  | nil => rfl
  | cons c later =>
    have stops : continuesNumber c = false := ends c rfl
    have noLetter : ¬ (c = 'e' ∨ c = 'E') := by
      rintro (rfl | rfl) <;> cases stops
    simp only [readExponent, noLetter, if_false]

/-- The reader of an exponent is local. -/
theorem local_readExponent : Local readExponent := by
  intro text value left rest ends read
  have digitsOnly (exponent : List Nat → Int) :
      Local fun text => someDigits text >>= fun read => .ok (some (exponent read.1), read.2) :=
    local_someDigits.bind fun digits => local_pure (some (exponent digits))
  match text with
  | [] =>
    cases read
    exact readExponent_of_ends ends
  | c :: later =>
    by_cases announced : c = 'e' ∨ c = 'E'
    · simp only [List.cons_append, readExponent, announced, if_true] at read ⊢
      match later with
      | [] => cases read
      | sign :: digits =>
        by_cases minus : sign = '-'
        · subst minus
          exact digitsOnly (fun digits => -(ofDigits digits : Int)) digits value left rest ends read
        · by_cases plus : sign = '+'
          · subst plus
            exact digitsOnly (fun digits => (ofDigits digits : Int)) digits value left rest ends
              read
          · have unsigned := digitsOnly (fun digits => (ofDigits digits : Int))
              (sign :: digits) value left rest ends
            split at read
            · next same => exact absurd (List.cons.inj same).1 minus
            · next same => exact absurd (List.cons.inj same).1 plus
            · rw [List.cons_append]
              split
              · next same => exact absurd (List.cons.inj same).1 minus
              · next same => exact absurd (List.cons.inj same).1 plus
              · exact unsigned read
    · simp only [List.cons_append, readExponent, announced, if_false] at read ⊢
      cases read
      rfl

/-- The parts of a literal behind its sign. -/
def readParts (negative : Bool) (text : List Char) :
    Except LiteralFault (Literal × List Char) := do
  let (whole, text) ← readWhole text
  let (fraction, text) ← readFraction text
  let (exponent, text) ← readExponent text
  .ok (⟨negative, whole, fraction, exponent⟩, text)

/-- The reader of the parts is local. -/
theorem local_readParts (negative : Bool) : Local (readParts negative) :=
  local_readWhole.bind fun whole => local_readFraction.bind fun fraction =>
    local_readExponent.bind fun exponent =>
      local_pure (Literal.mk negative whole fraction exponent)

/-- Without a minus sign the parts begin at once. -/
theorem readLiteral_of_ne {c : Char} (unsigned : c ≠ '-') (text : List Char) :
    readLiteral (c :: text) = readParts false (c :: text) := by
  unfold readLiteral
  split
  next sign =>
    split at sign
    · next same => exact absurd (List.cons.inj same).1 unsigned
    · cases sign; rfl

/-- The reader of literals is local. -/
theorem local_readLiteral : Local readLiteral := by
  intro text value left rest ends read
  match text with
  | [] => cases read
  | c :: later =>
    by_cases minus : c = '-'
    · subst minus
      exact local_readParts true later value left rest ends read
    · rw [readLiteral_of_ne minus] at read
      rw [List.cons_append, readLiteral_of_ne minus]
      exact local_readParts false (c :: later) value left rest ends read

/-- The reader of numbers is local. -/
theorem local_read : Local read := by
  have valued (literal : Literal) :
      Local fun rest => literal.number >>= fun number => .ok (number, rest) := by
    cases literal.number with
    | error fault => exact fun _ _ _ _ _ read => nomatch read
    | ok number => exact local_pure number
  exact local_readLiteral.bind valued

/-- A literal begins with a minus sign or a digit. -/
theorem exists_cons_of_readLiteral {text left : List Char} {literal : Literal}
    (read : readLiteral text = .ok (literal, left)) :
    ∃ c later, text = c :: later ∧ (c = '-' ∨ c.isDigit = true) := by
  match text with
  | [] => cases read
  | c :: later =>
    refine ⟨c, later, rfl, Classical.or_iff_not_imp_left.mpr fun unsigned => ?_⟩
    cases digit : c.isDigit with
    | true => rfl
    | false =>
      have none : spanDigits (c :: later) = ([], c :: later) := by
        simp only [spanDigits, digit?_eq, digit, Bool.false_eq_true, if_false]
      simp only [readLiteral_of_ne unsigned, readParts, readWhole, someDigits, none] at read
      cases read

/-- A number begins with a minus sign or a digit. -/
theorem exists_cons_of_read {text left : List Char} {value : Number}
    (read : read text = .ok (value, left)) :
    ∃ c later, text = c :: later ∧ (c = '-' ∨ c.isDigit = true) := by
  cases found : readLiteral text with
  | ok pair => exact exists_cons_of_readLiteral found
  | error fault =>
    rw [Number.read, found] at read
    cases read

section Digits

variable {text rest : List Char}

/-- The values of digits. -/
def digitValues (text : List Char) : List Nat := text.map fun c => c.toNat - '0'.toNat

/-- Only the digit zero has the value zero. -/
theorem value_ne_zero {c : Char} (digit : c.isDigit = true) (solid : c ≠ '0') :
    c.toNat - '0'.toNat ≠ 0 := by
  have value : c.toNat ≠ '0'.toNat := fun same => solid (Char.toNat_inj.mp same)
  have low : '0'.toNat ≤ c.toNat := by
    simp only [Char.isDigit, Bool.and_eq_true, decide_eq_true_eq, ge_iff_le,
      UInt32.le_iff_toNat_le] at digit
    exact digit.1
  omega

/-- Digits of which the first is not zero are a whole part. -/
theorem readWhole_of_ne_zero {first : Nat} {digits : List Nat}
    (taken : spanDigits text = (first :: digits, rest)) (leading : first ≠ 0) :
    readWhole text = .ok (first :: digits, rest) := by
  obtain ⟨first, rfl⟩ := Nat.exists_eq_succ_of_ne_zero leading
  simp only [readWhole, someDigits, taken]
  rfl

/-- Digits are read up to what is no digit. -/
theorem spanDigits_digits_append (digits : ∀ c ∈ text, c.isDigit = true)
    (stops : spanDigits rest = ([], rest)) :
    spanDigits (text ++ rest) = (digitValues text, rest) := by
  induction text with
  | nil => exact stops
  | cons c text ih =>
    have first : c.isDigit = true := digits c List.mem_cons_self
    have later := ih fun c present => digits c (List.mem_cons_of_mem _ present)
    rw [List.cons_append, spanDigits, digit?_eq, if_pos first, later]
    rfl

/-- At least one digit is read. -/
theorem someDigits_digits_append (digits : ∀ c ∈ text, c.isDigit = true) (nonempty : text ≠ [])
    (stops : spanDigits rest = ([], rest)) :
    someDigits (text ++ rest) = .ok (digitValues text, rest) := by
  cases text with
  | nil => exact absurd rfl nonempty
  | cons c text =>
    rw [someDigits, spanDigits_digits_append digits stops]
    rfl

/-- Whether digits are written as a whole part is: without a zero in front of other digits. -/
def Leads (text : List Char) : Prop := text ≠ [] ∧ (text = ['0'] ∨ text.head? ≠ some '0')

/-- The whole part is read. -/
theorem readWhole_digits_append (digits : ∀ c ∈ text, c.isDigit = true) (leads : Leads text)
    (stops : spanDigits rest = ([], rest)) :
    readWhole (text ++ rest) = .ok (digitValues text, rest) := by
  have taken := someDigits_digits_append digits leads.1 stops
  rcases leads.2 with rfl | solid
  · rw [readWhole, taken]
    rfl
  · cases text with
    | nil => exact absurd rfl leads.1
    | cons c text =>
      have first : c.isDigit = true := digits c List.mem_cons_self
      have nonzero : c ≠ '0' := fun same => solid (congrArg some same)
      exact readWhole_of_ne_zero (spanDigits_digits_append digits stops)
        (value_ne_zero first nonzero)

/-- The digits of a natural number write that number. -/
theorem ofDigits_naturalText (n : Nat) : ofDigits (digitValues (naturalText n)) = n := by
  have written : Nat.ofDigitChars 10 (naturalText n) 0 = n := Nat.ofDigitChars_ten_toDigits
  rw [Nat.ofDigitChars_eq_foldl] at written
  rw [ofDigits, digitValues, List.foldl_map]
  exact written

/-- A natural number is written with digits only. -/
theorem isDigit_naturalText (n : Nat) : ∀ c ∈ naturalText n, c.isDigit = true :=
  fun _ present => Nat.isDigit_of_mem_toDigits (by decide) (by decide) present

/-- Only zero is written with a leading zero. -/
theorem head_naturalText_ne {n : Nat} (positive : 0 < n) :
    ∃ c rest, naturalText n = c :: rest ∧ c ≠ '0' := by
  induction n using Nat.base_induction 10 (by decide) with
  | single n small =>
    refine ⟨n.digitChar, [], Nat.toDigits_of_lt_base small, ?_⟩
    rw [ne_eq, Nat.digitChar_eq_zero]
    omega
  | digit n d small leading ih =>
    obtain ⟨c, rest, text, nonzero⟩ := ih leading
    refine ⟨c, rest ++ Nat.toDigits 10 d, ?_, nonzero⟩
    rw [naturalText, ← Nat.toDigits_append_toDigits (by decide) leading small]
    exact congrArg (· ++ Nat.toDigits 10 d) text

/-- The digits of a positive number have no zero in front. -/
theorem leads_naturalText_append {n : Nat} (positive : 0 < n) (text : List Char) :
    Leads (naturalText n ++ text) := by
  obtain ⟨c, rest, digits, solid⟩ := head_naturalText_ne positive
  rw [digits]
  exact ⟨List.cons_ne_nil _ _, .inr fun zero => solid (Option.some.inj zero)⟩

/-- The digits of a natural number have no zero in front. -/
theorem leads_naturalText (n : Nat) : Leads (naturalText n) := by
  rcases Nat.eq_zero_or_pos n with rfl | positive
  · exact ⟨List.cons_ne_nil _ _, .inl rfl⟩
  · have leads := leads_naturalText_append positive []
    rwa [List.append_nil] at leads

/-- The digits of a natural number are a whole part. -/
theorem readWhole_naturalText (n : Nat) :
    readWhole (naturalText n) = .ok (digitValues (naturalText n), []) := by
  have behind : spanDigits [] = ([], []) := rfl
  have read := readWhole_digits_append (isDigit_naturalText n) (leads_naturalText n) behind
  rwa [List.append_nil] at read

/-- Without a minus sign the parts are the literal. -/
theorem readLiteral_of_readParts {literal : Literal}
    (read : readParts false text = .ok (literal, rest)) :
    readLiteral text = .ok (literal, rest) := by
  cases text with
  | nil => cases read
  | cons c text =>
    by_cases minus : c = '-'
    · subst minus
      cases read
    · rw [readLiteral_of_ne minus]
      exact read

end Digits

section Integers

/-- The text of a whole number is a literal with no parts but the digits of its magnitude. -/
theorem readLiteral_integerText (n : Int) :
    readLiteral (integerText n) =
      .ok (⟨decide (n < 0), digitValues (naturalText n.natAbs), none, none⟩, []) := by
  have parts (negative : Bool) : readParts negative (naturalText n.natAbs) =
      .ok (⟨negative, digitValues (naturalText n.natAbs), none, none⟩, []) := by
    simp only [readParts, readWhole_naturalText]
    rfl
  by_cases negative : n < 0
  · rw [integerText, if_pos negative, decide_eq_true negative]
    exact parts true
  · rw [integerText, if_neg negative, decide_eq_false negative]
    exact readLiteral_of_readParts (parts false)

/-- The digits of its magnitude and its sign denote a whole number. -/
theorem integer?_of_naturalText (n : WordInteger) :
    (Literal.mk (decide (n.value < 0)) (digitValues (naturalText n.value.natAbs)) none
      none).integer? = some n := by
  obtain ⟨value, lower, upper⟩ := n
  have fits : WordInteger.ofInt? value = some ⟨value, lower, upper⟩ := dif_pos ⟨lower, upper⟩
  simp only [Literal.integer?, ofDigits_naturalText, decide_eq_true_eq]
  by_cases negative : value < 0
  · have magnitude : value.natAbs ≠ 0 := by omega
    have opposite : -(value.natAbs : Int) = value := by omega
    rw [if_pos negative, if_neg magnitude, opposite, fits]
  · have magnitude : (value.natAbs : Int) = value := by omega
    rw [if_neg negative, magnitude, fits]

/-- The text of a whole number is read as that number. -/
theorem read_integerText (n : WordInteger) :
    read (integerText n.value) = .ok (.integer n, []) := by
  rw [read, readLiteral_integerText]
  show Literal.number _ >>= _ = _
  rw [Literal.number, integer?_of_naturalText]
  rfl

end Integers

end Redaction.Number

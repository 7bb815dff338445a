import Redaction.Text.LowerCase

/-!
# Texts in lower case

Lower-casing a text a second time changes nothing: no character that it writes has another
lower-case form, and none is a capital sigma, so the surroundings no longer matter. Nor does the
case of the letters of the ASCII alphabet matter before. Such a letter has one lower-case form in
either case, and the rule for a final sigma sees the same neighbours.
-/

namespace Redaction.Text

/-- The lower-case form of the first code point of a run. -/
def CaseRun.lowFirst (run : CaseRun) : Nat := (run.first + run.shift).toNat

/-- The lower-case form of the last code point of a run. -/
def CaseRun.lowLast (run : CaseRun) : Nat := (run.last + run.shift).toNat

/-- Whether the lower-case forms of a run lie outside another run: below it, above it, or in the
gaps between its code points. -/
def CaseRun.avoids (run other : CaseRun) : Bool :=
  other.last.blt run.lowFirst || run.lowLast.blt other.first ||
    ((other.stride.beq 2 && (run.stride.beq 2 || run.lowFirst.beq run.lowLast)) &&
      (other.first.ble run.lowFirst && ((run.lowFirst - other.first) % 2).beq 1))

/-- Lower-case forms that lie outside another run are not covered by it. -/
theorem CaseRun.covers_eq_false_of_avoids {run other : CaseRun} (avoids : run.avoids other = true)
    {code : Nat} (covered : run.covers code = true) :
    other.covers (code + run.shift).toNat = false := by
  simp only [CaseRun.covers, Bool.and_eq_true, decide_eq_true_eq, beq_iff_eq] at covered
  obtain ⟨⟨low, high⟩, place⟩ := covered
  have above : run.lowFirst ≤ (code + run.shift).toNat := Int.toNat_le_toNat (by omega)
  have below : (code + run.shift).toNat ≤ run.lowLast := Int.toNat_le_toNat (by omega)
  rw [CaseRun.avoids, Bool.or_eq_true, Bool.or_eq_true] at avoids
  rw [← Bool.not_eq_true, CaseRun.covers]
  simp only [Bool.and_eq_true, decide_eq_true_eq, beq_iff_eq, not_and]
  rintro ⟨atLeast, atMost⟩
  rcases avoids with (before | behind) | between
  · have := Nat.blt_eq.mp before
    omega
  · have := Nat.blt_eq.mp behind
    omega
  · simp only [Bool.and_eq_true, Bool.or_eq_true, Nat.beq_eq, Nat.ble_eq] at between
    obtain ⟨⟨gaps, spaced⟩, start, odd⟩ := between
    rw [gaps]
    -- Either the lower-case forms are as far apart as the gaps, or there is only one of them.
    rcases spaced with wide | single
    · rw [wide] at place
      rw [CaseRun.lowFirst] at start odd
      omega
    · omega

/-- The lower-case forms of all runs lie outside all runs. -/
theorem lowerCaseRuns_avoid :
    lowerCaseRuns.all (fun run => lowerCaseRuns.all run.avoids) = true := by decide +kernel

/-- The capital I with a dot is no lower-case form. -/
theorem lowerCaseRuns_avoid_dotted :
    lowerCaseRuns.all (fun run => run.avoids ⟨0x130, 0x130, 1, 0⟩) = true := by decide +kernel

/-- All lower-case forms of a run are characters. -/
theorem lowerCaseRuns_valid :
    lowerCaseRuns.all (fun run => run.lowLast.blt 0xD800 ||
      (Nat.blt 0xDFFF run.lowFirst && run.lowLast.blt 0x110000)) = true := by decide +kernel

/-- The small letters that the rules for single characters write lie outside all runs. -/
theorem lowerCaseRuns_small :
    lowerCaseRuns.all (fun run => ['i', '\u0307', 'σ', 'ς'].all fun c => !run.covers c.toNat) =
      true := by decide +kernel

/-- The capital sigma lies in a run. -/
theorem lowerCaseRuns_sigma : lowerCaseRuns.any (fun run => run.covers 'Σ'.toNat) = true := by
  decide +kernel

/-- A code point in none of the runs is its own lower-case form. -/
theorem lowerCode_of_not_covered {runs : List CaseRun} {code : Nat}
    (outside : ∀ run ∈ runs, run.covers code = false) : lowerCode runs code = code := by
  induction runs with
  | nil => rfl
  | cons run rest ih =>
    obtain ⟨here, later⟩ := List.forall_mem_cons.mp outside
    rw [lowerCode, here, ih later]
    simp

/-- A code point is its own lower-case form, or that of a run in which it lies. -/
theorem lowerCode_cases (runs : List CaseRun) (code : Nat) :
    lowerCode runs code = code ∨
      ∃ run ∈ runs, run.covers code = true ∧ lowerCode runs code = (code + run.shift).toNat := by
  induction runs with
  | nil => exact .inl rfl
  | cons run rest ih =>
    rw [lowerCode]
    by_cases low : code < run.first
    · exact .inl (if_pos low)
    · rw [if_neg low]
      by_cases covered : run.covers code = true
      · exact .inr ⟨run, List.mem_cons_self, covered, if_pos covered⟩
      · rw [if_neg covered]
        refine ih.imp_right fun ⟨other, later, lies, form⟩ => ?_
        exact ⟨other, List.mem_cons_of_mem _ later, lies, form⟩

/-- The lower-case form of a code point that lies in a run is in none of the runs, is not the
capital I with a dot, and belongs to a character. -/
theorem lowered_spec {run : CaseRun} (listed : run ∈ lowerCaseRuns) {code : Nat}
    (covered : run.covers code = true) :
    (∀ other ∈ lowerCaseRuns, other.covers (code + run.shift).toNat = false) ∧
      (code + run.shift).toNat ≠ 0x130 ∧ (code + run.shift).toNat.isValidChar := by
  refine ⟨fun other present => ?_, fun dotted => ?_, ?_⟩
  · have avoids := List.all_eq_true.mp (List.all_eq_true.mp lowerCaseRuns_avoid run listed)
    exact CaseRun.covers_eq_false_of_avoids (avoids other present) covered
  · have avoids := List.all_eq_true.mp lowerCaseRuns_avoid_dotted run listed
    have outside := CaseRun.covers_eq_false_of_avoids avoids covered
    rw [dotted] at outside
    exact absurd outside (by decide)
  · have valid := List.all_eq_true.mp lowerCaseRuns_valid run listed
    simp only [Bool.or_eq_true, Bool.and_eq_true, Nat.blt_eq, CaseRun.lowFirst, CaseRun.lowLast]
      at valid
    simp only [CaseRun.covers, Bool.and_eq_true, decide_eq_true_eq] at covered
    rw [Nat.isValidChar]
    omega

/-- Whether a character stays as it is wherever it stands. -/
def Settled (c : Char) : Prop := c ≠ 'Σ' ∧ lowerChar c = [c]

/-- A character outside all runs stays as it is, unless it has a rule of its own. -/
theorem settled_of_outside {c : Char} (notSigma : c ≠ 'Σ') (notDotted : c.toNat ≠ 0x130)
    (outside : ∀ run ∈ lowerCaseRuns, run.covers c.toNat = false) : Settled c := by
  refine ⟨notSigma, ?_⟩
  rw [lowerChar, if_neg notDotted, lowerCode_of_not_covered outside, Char.ofNat_toNat]

/-- The small letters that the rules for single characters write stay as they are. -/
theorem settled_of_small {c : Char} (small : c ∈ ['i', '\u0307', 'σ', 'ς']) : Settled c := by
  obtain ⟨notSigma, notDotted⟩ : c ≠ 'Σ' ∧ c.toNat ≠ 0x130 := by
    simp only [List.mem_cons, List.not_mem_nil, or_false] at small
    rcases small with rfl | rfl | rfl | rfl <;> decide
  refine settled_of_outside notSigma notDotted fun run listed => ?_
  have outside := List.all_eq_true.mp (List.all_eq_true.mp lowerCaseRuns_small run listed) c small
  rwa [Bool.not_eq_true'] at outside

/-- A character other than a capital sigma has a lower-case form that stays as it is. -/
theorem settled_of_mem_lowerChar {c d : Char} (notSigma : c ≠ 'Σ') (written : d ∈ lowerChar c) :
    Settled d := by
  unfold lowerChar at written
  split at written
  · exact settled_of_small (List.mem_append_left ['σ', 'ς'] written)
  · next notDotted =>
    obtain rfl := List.mem_singleton.mp written
    rcases lowerCode_cases lowerCaseRuns c.toNat with own | ⟨run, listed, covered, form⟩
    · rw [own, Char.ofNat_toNat]
      refine ⟨notSigma, ?_⟩
      rw [lowerChar, if_neg notDotted, own, Char.ofNat_toNat]
    · obtain ⟨outside, other, valid⟩ := lowered_spec listed covered
      rw [form]
      have code : (Char.ofNat (c.toNat + run.shift).toNat).toNat = (c.toNat + run.shift).toNat := by
        rw [Char.ofNat, dif_pos valid]
        rfl
      rw [← code] at outside other
      refine settled_of_outside (fun sigma => ?_) other outside
      obtain ⟨own, present, inside⟩ := List.any_eq_true.mp lowerCaseRuns_sigma
      rw [← sigma, outside own present] at inside
      cases inside

/-- Every character of a text in lower case stays as it is. -/
theorem settled_of_mem_lowerFrom {before text : List Char} {c : Char}
    (written : c ∈ lowerFrom before text) : Settled c := by
  induction text generalizing before with
  | nil => cases written
  | cons first rest ih =>
    rw [lowerFrom, List.mem_append] at written
    rcases written with here | later
    · split at here
      · obtain rfl := List.mem_singleton.mp here
        split
        · exact settled_of_small (by decide)
        · exact settled_of_small (by decide)
      · next notSigma => exact settled_of_mem_lowerChar notSigma here
    · exact ih later

/-- A text of characters that stay as they are stays as it is. -/
theorem lowerFrom_of_settled {before text : List Char} (settled : ∀ c ∈ text, Settled c) :
    lowerFrom before text = text := by
  induction text generalizing before with
  | nil => rfl
  | cons first rest ih =>
    obtain ⟨⟨notSigma, own⟩, later⟩ := List.forall_mem_cons.mp settled
    rw [lowerFrom, if_neg notSigma, own, ih later, List.singleton_append]

/-- Lower-casing a text in lower case changes nothing. -/
theorem lowerCase_lowerCase (text : String) : lowerCase (lowerCase text) = lowerCase text := by
  rw [lowerCase, lowerCase, String.toList_ofList]
  exact congrArg String.ofList (lowerFrom_of_settled fun _ => settled_of_mem_lowerFrom)

/-- What the rules of case see in a letter of the ASCII alphabet is the same for both its cases. -/
theorem toLower_spec (c : Char) :
    lowerChar c.toLower = lowerChar c ∧ isCased c.toLower = isCased c ∧
      isCaseIgnorable c.toLower = isCaseIgnorable c ∧ (c.toLower = 'Σ' ↔ c = 'Σ') := by
  by_cases capital : c.val ≥ 'A'.val ∧ c.val ≤ 'Z'.val
  · have letters : ∀ code ∈ List.range' 0x41 26, lowerChar (Char.ofNat code).toLower =
          lowerChar (Char.ofNat code) ∧ isCased (Char.ofNat code).toLower =
          isCased (Char.ofNat code) ∧ isCaseIgnorable (Char.ofNat code).toLower =
          isCaseIgnorable (Char.ofNat code) ∧
          ((Char.ofNat code).toLower = 'Σ' ↔ Char.ofNat code = 'Σ') := by decide +kernel
    have bounds : 0x41 ≤ c.toNat ∧ c.toNat ≤ 0x5A := capital
    have own := letters c.toNat (List.mem_range'_1.mpr (by omega))
    rwa [Char.ofNat_toNat] at own
  · have same : c.toLower = c := dif_neg capital
    rw [same]
    exact ⟨rfl, rfl, rfl, .rfl⟩

/-- The neighbours of a sigma may stand in either case of the ASCII alphabet. -/
theorem startsCased_toLower (text : List Char) :
    startsCased (text.map Char.toLower) = startsCased text := by
  have ignored : isCaseIgnorable ∘ Char.toLower = isCaseIgnorable :=
    funext fun c => (toLower_spec c).2.2.1
  rw [startsCased, startsCased, List.dropWhile_map, ignored]
  cases text.dropWhile isCaseIgnorable with
  | nil => rfl
  | cons first rest => exact (toLower_spec first).2.1

/-- A text may stand in either case of the ASCII alphabet, and so may what stands before it. -/
theorem lowerFrom_toLower (before text : List Char) :
    lowerFrom (before.map Char.toLower) (text.map Char.toLower) = lowerFrom before text := by
  induction text generalizing before with
  | nil => rfl
  | cons first rest ih =>
    obtain ⟨own, _, _, sigma⟩ := toLower_spec first
    have later := ih (first :: before)
    rw [List.map_cons] at later
    rw [List.map_cons, lowerFrom, lowerFrom, later, own, endsWord, endsWord, startsCased_toLower,
      startsCased_toLower]
    by_cases capital : first = 'Σ'
    · rw [if_pos capital, if_pos (sigma.mpr capital)]
    · rw [if_neg capital, if_neg (mt sigma.mp capital)]

/-- Whether two texts differ at most in the case of letters of the ASCII alphabet. -/
def SameLetters (text other : String) : Prop :=
  text.toList.map Char.toLower = other.toList.map Char.toLower

instance (text other : String) : Decidable (SameLetters text other) :=
  inferInstanceAs (Decidable (_ = _))

/-- Texts that differ at most in the case of ASCII letters have one lower-case form. -/
theorem SameLetters.lowerCase_eq {text other : String} (same : SameLetters text other) :
    lowerCase text = lowerCase other := by
  rw [lowerCase, lowerCase, ← lowerFrom_toLower [] text.toList, ← lowerFrom_toLower [] other.toList,
    same]

/-- A capital sigma behind a word with its ASCII letters in either case. -/
example : lowerCase "NoΣ" = "noς" ∧ lowerCase "nOΣ" = "noς" ∧ lowerCase "noς" = "noς" := by
  decide +kernel

end Redaction.Text

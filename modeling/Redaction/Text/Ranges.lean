/-!
# Sets of code points

A property of characters is written down as the ascending list of the code-point ranges that have
it. Membership scans the list and stops at the first range that starts beyond the code point, so a
character near the bottom of the code space is decided after a few steps.
-/

namespace Redaction.Text

/-- Ranges of code points; both ends of a range belong to it. -/
abbrev Ranges := List (Nat × Nat)

/-- Whether a code point lies in one of the ranges, which have to ascend. -/
def Ranges.covers : Ranges → Nat → Bool
  | [], _ => false
  | (first, last) :: rest, code =>
    if code < first then false else if code ≤ last then true else Ranges.covers rest code

/-- Whether the ranges are non-empty, disjoint and ascending, all of them from `bound` on. -/
def Ranges.ascendFrom : Nat → Ranges → Bool
  | _, [] => true
  | bound, (first, last) :: rest =>
    decide (bound ≤ first) && decide (first ≤ last) && Ranges.ascendFrom (last + 1) rest

namespace Ranges

/-- Nothing below the first range is covered. -/
theorem covers_eq_false_of_lt {bound code : Nat} {ranges : Ranges}
    (ascending : ascendFrom bound ranges = true) (below : code < bound) :
    covers ranges code = false := by
  cases ranges with
  | nil => rfl
  | cons head rest =>
    obtain ⟨first, last⟩ := head
    simp only [ascendFrom, Bool.and_eq_true, decide_eq_true_eq] at ascending
    rw [covers, if_pos (by omega)]

/-- In an ascending list, to be covered is to lie in one of the ranges. -/
theorem covers_iff {bound code : Nat} {ranges : Ranges}
    (ascending : ascendFrom bound ranges = true) :
    covers ranges code = true ↔ ∃ range ∈ ranges, range.1 ≤ code ∧ code ≤ range.2 := by
  induction ranges generalizing bound with
  | nil => simp [covers]
  | cons head rest ih =>
    obtain ⟨first, last⟩ := head
    simp only [ascendFrom, Bool.and_eq_true, decide_eq_true_eq] at ascending
    obtain ⟨⟨_, ordered⟩, tail⟩ := ascending
    simp only [List.mem_cons, exists_eq_or_imp, ← ih tail, covers]
    by_cases low : code < first
    · have out : covers rest code = false := covers_eq_false_of_lt tail (by omega)
      have outside : ¬(first ≤ code ∧ code ≤ last) := by omega
      rw [if_pos low, out, or_iff_right outside]
    · by_cases high : code ≤ last
      · have inside : first ≤ code ∧ code ≤ last := by omega
        rw [if_neg low, if_pos high]
        exact ⟨fun _ => Or.inl inside, fun _ => rfl⟩
      · have outside : ¬(first ≤ code ∧ code ≤ last) := by omega
        rw [if_neg low, if_neg high, or_iff_right outside]

end Ranges

end Redaction.Text

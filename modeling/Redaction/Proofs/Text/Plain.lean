import Redaction.Proofs.Text.Visible
import Redaction.Text.Alphanumeric

/-!
# Characters that end no line

Escapes and digits are printed ASCII characters. Any other character of a text is written as it is
only if it is no control, between JSON quotes, and only if it shows on its own, between visible
quotes; so nothing between visible quotes could end a line. A text that depends on a marker is told
apart from its markers by a template, which has a gap for each of them.
-/

namespace Redaction

namespace Text

/-- Whether a character is a printed ASCII character or the blank. -/
def isPlain (c : Char) : Bool := 0x20 ≤ c.toNat && c.toNat ≤ 0x7E

/-- Whether a character is a control: the general category Cc. -/
def isControl (c : Char) : Bool := c.toNat < 0x20 || 0x7F ≤ c.toNat && c.toNat ≤ 0x9F

/-- Whether a character might end a line: a control, the line separator or the paragraph separator,
which are all of the general categories Cc, Zl and Zp. -/
def breaksLine (c : Char) : Bool := isControl c || c.toNat = 0x2028 || c.toNat = 0x2029

/-- A plain character ends no line. -/
theorem breaksLine_of_isPlain {c : Char} (plain : isPlain c = true) : breaksLine c = false := by
  simp only [isPlain, Bool.and_eq_true, decide_eq_true_eq] at plain
  simp only [breaksLine, isControl, Bool.or_eq_false_iff, Bool.and_eq_false_iff,
    decide_eq_false_iff_not]
  omega

/-- A plain character is not below the blank. -/
theorem le_of_isPlain {c : Char} (plain : isPlain c = true) : 0x20 ≤ c.toNat := by
  rw [isPlain, Bool.and_eq_true] at plain
  exact of_decide_eq_true plain.1

/-- No character of a plain text is below the blank. -/
theorem le_of_all_isPlain {text : List Char} (plain : text.all isPlain = true) :
    ∀ c ∈ text, 0x20 ≤ c.toNat :=
  fun c present => le_of_isPlain (List.all_eq_true.mp plain c present)

/-- What might end a line does not show on its own. -/
theorem isVisible_of_breaksLine {c : Char} (breaks : breaksLine c = true) :
    isVisible c = false := by
  have covered : ∃ range ∈ unprintableRanges, range.1 ≤ c.toNat ∧ c.toNat ≤ range.2 := by
    simp only [breaksLine, isControl, Bool.or_eq_true, Bool.and_eq_true,
      decide_eq_true_eq] at breaks
    by_cases low : c.toNat ≤ 0x1F
    · exact ⟨(0x0, 0x1F), by decide, Nat.zero_le _, low⟩
    by_cases high : c.toNat ≤ 0xA0
    · exact ⟨(0x7F, 0xA0), by decide, by omega, high⟩
    · exact ⟨(0x2028, 0x202F), by decide, by omega, by omega⟩
  have unprintable : isUnprintable c = true :=
    (Ranges.covers_iff unprintableRanges_ascend).mpr covered
  rw [isVisible, unprintable, Bool.not_true, Bool.false_and, Bool.false_and]

/-- Hexadecimal digits are plain. -/
theorem isPlain_of_hexDigit? {c : Char} (digit : (Json.hexDigit? c).isSome = true) :
    isPlain c = true := by
  unfold Json.hexDigit? at digit
  simp only [Char.le_def, UInt32.le_iff_toNat_le] at digit
  simp only [isPlain, Bool.and_eq_true, decide_eq_true_eq, Char.toNat]
  split at digit
  · next bounds => exact ⟨Nat.le_trans (by decide) bounds.1, Nat.le_trans bounds.2 (by decide)⟩
  split at digit
  · next bounds => exact ⟨Nat.le_trans (by decide) bounds.1, Nat.le_trans bounds.2 (by decide)⟩
  split at digit
  · next bounds => exact ⟨Nat.le_trans (by decide) bounds.1, Nat.le_trans bounds.2 (by decide)⟩
  · cases digit

/-- Decimal digits are plain. -/
theorem isPlain_of_isDigit {c : Char} (digit : c.isDigit = true) : isPlain c = true := by
  refine isPlain_of_hexDigit? ?_
  simp only [Char.isDigit, Bool.and_eq_true, decide_eq_true_eq] at digit
  rw [Json.hexDigit?, if_pos ⟨digit.1, digit.2⟩]
  rfl

/-- Letters and digits are plain. -/
theorem isPlain_of_isAlphanum {c : Char} (word : c.isAlphanum = true) : isPlain c = true := by
  have bounds := bounds_of_isAlphanum word
  simp only [isPlain, Bool.and_eq_true, decide_eq_true_eq]
  omega

/-- The numbers below sixteen have plain digits. -/
theorem isPlain_hexDigit {n : Nat} (small : n < 16) : isPlain (hexDigit n) = true :=
  isPlain_of_hexDigit? (by rw [Json.hexDigit?_hexDigit small]; rfl)

/-- A backslash and a plain letter are plain. -/
theorem forall_mem_short {letter : Char} (plain : isPlain letter = true) :
    ∀ d ∈ ['\\', letter], isPlain d = true :=
  List.forall_mem_cons.mpr ⟨rfl, List.forall_mem_singleton.mpr plain⟩

/-- Between JSON quotes no character is below the blank. -/
theorem le_of_mem_jsonEscape (c : Char) : ∀ d ∈ jsonEscape c, 0x20 ≤ d.toNat := by
  have short (letter : Char) (plain : isPlain letter = true) :
      ∀ d ∈ ['\\', letter], 0x20 ≤ d.toNat :=
    fun d present => le_of_isPlain (forall_mem_short plain d present)
  unfold jsonEscape
  split
  · exact short '"' rfl
  split
  · exact short '\\' rfl
  split
  · exact short 'b' rfl
  split
  · exact short 't' rfl
  split
  · exact short 'n' rfl
  split
  · exact short 'f' rfl
  split
  · exact short 'r' rfl
  split
  · next control =>
    have high := isPlain_hexDigit (show c.toNat / 16 < 16 by omega)
    have low := isPlain_hexDigit (show c.toNat % 16 < 16 by omega)
    simp only [List.forall_mem_cons]
    exact ⟨by decide, by decide, by decide, by decide, le_of_isPlain high, le_of_isPlain low,
      List.forall_mem_nil _⟩
  · next printed => exact List.forall_mem_singleton.mpr (Nat.not_lt.mp printed)

/-- No JSON quoted text has a character below the blank. -/
theorem le_of_mem_jsonQuoted (text : String) : ∀ d ∈ jsonQuoted text, 0x20 ≤ d.toNat := by
  intro d present
  simp only [jsonQuoted, List.mem_cons, List.mem_append, List.mem_flatMap, List.not_mem_nil,
    or_false] at present
  rcases present with (rfl | ⟨c, _, inside⟩) | rfl
  · decide
  · exact le_of_mem_jsonEscape c d inside
  · decide

/-- Between visible quotes nothing ends a line. -/
theorem breaksLine_of_mem_visibleEscape (c : Char) :
    ∀ d ∈ visibleEscape c, breaksLine d = false := by
  have short (letter : Char) (plain : isPlain letter = true) :
      ∀ d ∈ ['\\', letter], breaksLine d = false :=
    fun d present => breaksLine_of_isPlain (forall_mem_short plain d present)
  unfold visibleEscape
  split
  · exact short '0' rfl
  split
  · exact short 't' rfl
  split
  · exact short 'r' rfl
  split
  · exact short 'n' rfl
  split
  · exact short '"' rfl
  split
  · exact short '\\' rfl
  split
  · next visible =>
    refine List.forall_mem_singleton.mpr (eq_false_of_ne_true fun breaks => ?_)
    rw [isVisible_of_breaksLine breaks] at visible
    cases visible
  · intro d present
    simp only [codePointEscape, List.mem_cons, List.mem_append, List.not_mem_nil,
      or_false] at present
    rcases present with (rfl | rfl | rfl | digit) | rfl
    · rfl
    · rfl
    · rfl
    · exact breaksLine_of_isPlain (isPlain_of_hexDigit? (isSome_of_mem_toDigits digit))
    · rfl

/-- No visibly quoted text has a character that might end a line. -/
theorem breaksLine_of_mem_visiblyQuoted (text : String) :
    ∀ d ∈ visiblyQuoted text, breaksLine d = false := by
  intro d present
  simp only [visiblyQuoted, List.mem_cons, List.mem_append, List.mem_flatMap, List.not_mem_nil,
    or_false] at present
  rcases present with (rfl | ⟨c, _, inside⟩) | rfl
  · rfl
  · exact breaksLine_of_mem_visibleEscape c d inside
  · rfl

/-- A text with gaps that are left for a marker. -/
abbrev Template := List (Option Char)

/-- The text of a template with a marker in each gap. -/
def Template.filled (template : Template) (marker : String) : List Char :=
  template.flatMap fun slot => slot.elim marker.toList fun c => [c]

/-- Whether a text that depends on a marker is a template filled with it in which nothing might end
a line. -/
def Framed (text : String → List Char) : Prop :=
  ∃ template : Template, (∀ c, some c ∈ template → breaksLine c = false) ∧
    ∀ marker, text marker = template.filled marker

namespace Framed

/-- A text without gaps. -/
theorem of_forall {text : List Char} (calm : ∀ c ∈ text, breaksLine c = false) :
    Framed fun _ => text := by
  refine ⟨text.map some, fun c present => ?_, fun marker => ?_⟩
  · obtain ⟨d, inside, same⟩ := List.mem_map.mp present
    exact Option.some.inj same ▸ calm d inside
  · rw [Template.filled, List.flatMap_map]
    exact (List.flatMap_singleton' text).symm

/-- A plain text. -/
theorem of_all_isPlain {text : List Char} (plain : text.all isPlain = true) :
    Framed fun _ => text :=
  of_forall fun c present => breaksLine_of_isPlain (List.all_eq_true.mp plain c present)

/-- The marker alone. -/
theorem gap : Framed String.toList := by
  refine ⟨[none], fun c present => ?_, fun marker => ?_⟩
  · cases List.mem_singleton.mp present
  · exact (List.flatMap_singleton _ _).symm

/-- One text behind another. -/
theorem append {text other : String → List Char} (framed : Framed text) (behind : Framed other) :
    Framed fun marker => text marker ++ other marker := by
  obtain ⟨first, calm, fills⟩ := framed
  obtain ⟨second, calmOther, fillsOther⟩ := behind
  refine ⟨first ++ second, fun c present => ?_, fun marker => ?_⟩
  · rcases List.mem_append.mp present with before | after
    · exact calm c before
    · exact calmOther c after
  · dsimp only
    rw [fills, fillsOther, Template.filled, Template.filled, Template.filled, List.flatMap_append]

/-- A plain character in front. -/
theorem cons {text : String → List Char} {c : Char} (plain : isPlain c = true)
    (framed : Framed text) : Framed fun marker => c :: text marker :=
  append (of_forall (List.forall_mem_singleton.mpr (breaksLine_of_isPlain plain))) framed

end Framed

end Text

end Redaction

import Mathlib.Data.List.Basic
import Redaction.Proofs.Json.Quoted
import Redaction.Text.Quoted

/-!
# Telling visibly quoted texts apart

The escape of a character shows which character it is and where it ends: a backslash begins every
escape and nothing else, the letter behind it tells the short escapes from the code points, and a
brace ends the digits of a code point. A quote is always escaped, so the closing quote is the first
that stands alone.
-/

namespace Redaction.Text

open Json (hexDigit? hexDigit?_hexDigit)

/-- What stands in front of the first of several marks is told, and so is what is behind it. -/
theorem append_cons_inj {mark : Char} {first second rest left : List Char} (fresh : mark ∉ first)
    (freshOther : mark ∉ second) (same : first ++ mark :: rest = second ++ mark :: left) :
    first = second ∧ rest = left := by
  induction first generalizing second with
  | nil =>
    cases second with
    | nil => exact ⟨rfl, (List.cons.inj same).2⟩
    | cons d second => exact absurd (List.cons.inj same).1 (List.ne_of_not_mem_cons freshOther)
  | cons c first ih =>
    cases second with
    | nil => exact absurd (List.cons.inj same).1.symm (List.ne_of_not_mem_cons fresh)
    | cons d second =>
      obtain ⟨here, later⟩ := List.cons.inj same
      have inside := ih (List.not_mem_of_not_mem_cons fresh)
        (List.not_mem_of_not_mem_cons freshOther) later
      exact ⟨by rw [here, inside.1], inside.2⟩

/-- The number that hexadecimal digits write; what is no digit counts as zero. -/
def hexValue (digits : List Char) : Nat :=
  digits.foldl (fun n c => 16 * n + (hexDigit? c).getD 0) 0

/-- The hexadecimal digits of a number write that number. -/
theorem hexValue_toDigits (n : Nat) : hexValue (Nat.toDigits 16 n) = n := by
  induction n using Nat.base_induction 16 (by decide) with
  | single n small =>
    have digit : hexDigit? n.digitChar = some n := hexDigit?_hexDigit small
    rw [Nat.toDigits_of_lt_base small]
    simp only [hexValue, List.foldl_cons, List.foldl_nil, digit, Option.getD_some]
    omega
  | digit n d small leading ih =>
    have digit : hexDigit? d.digitChar = some d := hexDigit?_hexDigit small
    have split : Nat.toDigits 16 (16 * n + d) = Nat.toDigits 16 n ++ Nat.toDigits 16 d :=
      (Nat.toDigits_append_toDigits (by decide) leading small).symm
    rw [hexValue] at ih ⊢
    rw [split, List.foldl_append, ih, Nat.toDigits_of_lt_base small]
    simp only [List.foldl_cons, List.foldl_nil, digit, Option.getD_some]

/-- All digits of a number are hexadecimal digits. -/
theorem isSome_of_mem_toDigits {n : Nat} {c : Char} (present : c ∈ Nat.toDigits 16 n) :
    (hexDigit? c).isSome = true := by
  induction n using Nat.base_induction 16 (by decide) with
  | single n small =>
    rw [Nat.toDigits_of_lt_base small, List.mem_singleton] at present
    have digit : hexDigit? n.digitChar = some n := hexDigit?_hexDigit small
    rw [present, digit]
    rfl
  | digit n d small leading ih =>
    have split : Nat.toDigits 16 (16 * n + d) = Nat.toDigits 16 n ++ Nat.toDigits 16 d :=
      (Nat.toDigits_append_toDigits (by decide) leading small).symm
    have digit : hexDigit? d.digitChar = some d := hexDigit?_hexDigit small
    rw [split, Nat.toDigits_of_lt_base small, List.mem_append, List.mem_singleton] at present
    rcases present with before | last
    · exact ih before
    · rw [last, digit]
      rfl

/-- No digit is a closing brace. -/
theorem brace_not_mem_toDigits (n : Nat) : '\x7d' ∉ Nat.toDigits 16 n := fun present =>
  absurd (isSome_of_mem_toDigits present) (by decide)

/-- What a backslash with a letter behind it stands for, if that is all of the escape. -/
def shortMeaning? : Char → Option Char
  | '0' => some '\x00'
  | 't' => some '\t'
  | 'r' => some '\r'
  | 'n' => some '\n'
  | '"' => some '"'
  | '\\' => some '\\'
  | _ => none

/-- What a character may look like between visible quotes. -/
inductive Shown (c : Char) : List Char → Prop where
  /-- The character itself. -/
  | plain (noBackslash : c ≠ '\\') (noQuote : c ≠ '"') : Shown c [c]
  /-- A backslash and a letter. -/
  | short {letter : Char} (means : shortMeaning? letter = some c) : Shown c ['\\', letter]
  /-- The code point. -/
  | code : Shown c (codePointEscape c)

/-- What a character looks like between visible quotes. -/
theorem shown_visibleEscape (c : Char) : Shown c (visibleEscape c) := by
  unfold visibleEscape
  split
  · next zero =>
    have same : c = '\x00' := Char.toNat_inj.mp zero
    exact .short (by rw [same]; rfl)
  split
  · next same => exact .short (by rw [same]; rfl)
  split
  · next same => exact .short (by rw [same]; rfl)
  split
  · next same => exact .short (by rw [same]; rfl)
  split
  · next same => exact .short (by rw [same]; rfl)
  next noQuote =>
  split
  · next same => exact .short (by rw [same]; rfl)
  next noBackslash =>
  split
  · exact .plain noBackslash noQuote
  · exact .code

/-- A code point ends at its brace. -/
theorem codePointEscape_append_inj {c d : Char} {rest left : List Char}
    (same : codePointEscape c ++ rest = codePointEscape d ++ left) : c = d ∧ rest = left := by
  have digits : Nat.toDigits 16 c.toNat ++ '\x7d' :: rest =
      Nat.toDigits 16 d.toNat ++ '\x7d' :: left := by
    simpa [codePointEscape] using same
  obtain ⟨number, tails⟩ :=
    append_cons_inj (brace_not_mem_toDigits _) (brace_not_mem_toDigits _) digits
  have value : c.toNat = d.toNat := by
    calc
      c.toNat = hexValue (Nat.toDigits 16 c.toNat) := (hexValue_toDigits _).symm
      _ = hexValue (Nat.toDigits 16 d.toNat) := by rw [number]
      _ = d.toNat := hexValue_toDigits _
  exact ⟨Char.toNat_inj.mp value, tails⟩

/-- Behind an opening quote the characters of a text are told apart. -/
theorem Shown.append_inj {c d : Char} {here there rest left : List Char} (shown : Shown c here)
    (shownOther : Shown d there) (same : here ++ rest = there ++ left) : c = d ∧ rest = left := by
  cases shown with
  | plain noBackslash _ =>
    cases shownOther with
    | plain => exact List.cons.inj same
    | short | code => exact absurd (List.cons.inj same).1 noBackslash
  | @short letter means =>
    cases shownOther with
    | plain noBackslash _ => exact absurd (List.cons.inj same).1.symm noBackslash
    | short meansOther =>
      obtain ⟨letters, tails⟩ := List.cons.inj (List.cons.inj same).2
      rw [letters, meansOther] at means
      exact ⟨(Option.some.inj means).symm, tails⟩
    | code =>
      obtain ⟨rfl, _⟩ := List.cons.inj (List.cons.inj same).2
      cases means
  | code =>
    cases shownOther with
    | plain noBackslash _ => exact absurd (List.cons.inj same).1.symm noBackslash
    | short meansOther =>
      obtain ⟨rfl, _⟩ := List.cons.inj (List.cons.inj same).2
      cases meansOther
    | code => exact codePointEscape_append_inj same

/-- No escape begins with a quote. -/
theorem Shown.append_ne_quote {c : Char} {here : List Char} (shown : Shown c here)
    (rest left : List Char) : here ++ rest ≠ '"' :: left := by
  cases shown with
  | plain _ noQuote => exact fun same => noQuote (List.cons.inj same).1
  | short | code =>
    intro same
    have first : '\\' = '"' := (List.cons.inj same).1
    cases first

/-- Escaped characters are told up to the quote behind them. -/
theorem flatMap_visibleEscape_inj {chars others rest left : List Char}
    (same : chars.flatMap visibleEscape ++ '"' :: rest =
      others.flatMap visibleEscape ++ '"' :: left) : chars = others ∧ rest = left := by
  induction chars generalizing others with
  | nil =>
    cases others with
    | nil => exact ⟨rfl, (List.cons.inj same).2⟩
    | cons d others =>
      rw [List.flatMap_cons, List.append_assoc] at same
      exact absurd same.symm ((shown_visibleEscape d).append_ne_quote _ _)
  | cons c chars ih =>
    rw [List.flatMap_cons, List.append_assoc] at same
    cases others with
    | nil => exact absurd same ((shown_visibleEscape c).append_ne_quote _ _)
    | cons d others =>
      rw [List.flatMap_cons, List.append_assoc] at same
      obtain ⟨first, later⟩ := (shown_visibleEscape c).append_inj (shown_visibleEscape d) same
      obtain ⟨others, tails⟩ := ih later
      exact ⟨by rw [first, others], tails⟩

/-- A visibly quoted text is told by what begins with it, and so is its end. -/
theorem visiblyQuoted_append_inj {text other : String} {rest left : List Char}
    (same : visiblyQuoted text ++ rest = visiblyQuoted other ++ left) :
    text = other ∧ rest = left := by
  have inside : text.toList.flatMap visibleEscape ++ '"' :: rest =
      other.toList.flatMap visibleEscape ++ '"' :: left := by
    simpa [visiblyQuoted] using same
  obtain ⟨chars, tails⟩ := flatMap_visibleEscape_inj inside
  exact ⟨String.toList_inj.mp chars, tails⟩

end Redaction.Text

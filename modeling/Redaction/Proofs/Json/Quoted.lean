import Redaction.Json.Reader
import Redaction.Text.Quoted

/-!
# Reading a quoted text

Every character is escaped in a way that reading undoes, so that reading a quoted text yields the
text and stops behind its closing quote.
-/

namespace Redaction.Json

open Text (jsonEscape jsonQuoted hexDigit)

/-- A hexadecimal digit has the value that it was made from. -/
theorem hexDigit?_hexDigit {n : Nat} (small : n < 16) : hexDigit? (hexDigit n) = some n := by
  revert small n
  decide

/-- The digits of the escape of a control character are read as its code point. -/
theorem readCodePoint_control {n : Nat} (control : n < 0x20) (rest : List Char) :
    readCodePoint ('0' :: '0' :: hexDigit (n / 16) :: hexDigit (n % 16) :: rest) =
      .ok (Char.ofNat n, rest) := by
  have high : hexDigit? (hexDigit (n / 16)) = some (n / 16) := hexDigit?_hexDigit (by omega)
  have low : hexDigit? (hexDigit (n % 16)) = some (n % 16) := hexDigit?_hexDigit (by omega)
  have zero : hexDigit? '0' = some 0 := rfl
  have whole : n / 16 * 16 + n % 16 = n := by omega
  have number : hexNumber? '0' '0' (hexDigit (n / 16)) (hexDigit (n % 16)) = some n := by
    simp [hexNumber?, zero, high, low, whole]
  have noTrail : isTrailingSurrogate n = false := by
    simp only [isTrailingSurrogate, Bool.and_eq_false_iff, decide_eq_false_iff_not]
    omega
  have noLead : isLeadingSurrogate n = false := by
    simp only [isLeadingSurrogate, Bool.and_eq_false_iff, decide_eq_false_iff_not]
    omega
  simp only [readCodePoint, readHex, number]
  show (if isTrailingSurrogate n = true then _ else _) = _
  simp only [noTrail, noLead, Bool.false_eq_true, if_false]

/-- A character that needs no escape is read as itself. -/
theorem readCharacter_of_ne {c : Char} (plain : c ≠ '\\') (printed : 0x20 ≤ c.toNat)
    (rest : List Char) : readCharacter (c :: rest) = .ok (c, rest) := by
  unfold readCharacter
  split
  · next same => cases same
  · next same => exact absurd (List.cons.inj same).1 plain
  · next same => exact absurd (List.cons.inj same).1 plain
  · next same => exact absurd (List.cons.inj same).1 plain
  · next same =>
    obtain ⟨rfl, rfl⟩ := List.cons.inj same
    exact if_neg (Nat.not_lt.mpr printed)

/-- An escaped character is read as itself. -/
theorem readCharacter_jsonEscape (c : Char) (rest : List Char) :
    readCharacter (jsonEscape c ++ rest) = .ok (c, rest) := by
  -- The cases are those of the escape: the short ones, the hexadecimal one and none at all.
  unfold jsonEscape
  split
  · next quote => subst quote; rfl
  split
  · next backslash => subst backslash; rfl
  split
  · next backspace =>
    obtain rfl : c = '\x08' := Char.toNat_inj.mp backspace
    rfl
  split
  · next tab => subst tab; rfl
  split
  · next newline => subst newline; rfl
  split
  · next formFeed =>
    obtain rfl : c = '\x0c' := Char.toNat_inj.mp formFeed
    rfl
  split
  · next carriageReturn => subst carriageReturn; rfl
  split
  · next control =>
    show readCodePoint _ = _
    exact (readCodePoint_control control rest).trans (by rw [Char.ofNat_toNat])
  · next plain _ _ _ _ _ printed => exact readCharacter_of_ne plain (Nat.not_lt.mp printed) rest

/-- An escaped character begins with no quote. -/
theorem exists_cons_jsonEscape (c : Char) :
    ∃ first later, jsonEscape c = first :: later ∧ first ≠ '"' := by
  unfold jsonEscape
  split
  · exact ⟨_, _, rfl, by decide⟩
  · next noQuote =>
    repeat' split
    all_goals first
      | exact ⟨_, _, rfl, by decide⟩
      | exact ⟨_, _, rfl, noQuote⟩

/-- What does not begin with a quote begins with a character of the text. -/
theorem readCharacters_succ_of_ne {first : Char} (noQuote : first ≠ '"') (bound : Nat)
    (text : List Char) :
    readCharacters (bound + 1) (first :: text) =
      readCharacter (first :: text) >>= fun read =>
        readCharacters bound read.2 >>= fun later => .ok (read.1 :: later.1, later.2) := by
  rw [readCharacters]
  exact fun rest same => noQuote (List.cons.inj same).1

/-- Escaped characters are read one by one up to the closing quote. -/
theorem readCharacters_flatMap (text rest : List Char) {bound : Nat}
    (enough : text.length < bound) :
    readCharacters bound (text.flatMap jsonEscape ++ '"' :: rest) = .ok (text, rest) := by
  induction text generalizing bound with
  | nil =>
    obtain ⟨bound, rfl⟩ := Nat.exists_eq_succ_of_ne_zero (Nat.ne_of_gt enough)
    rfl
  | cons c text ih =>
    obtain ⟨bound, rfl⟩ := Nat.exists_eq_succ_of_ne_zero (Nat.ne_of_gt (Nat.zero_lt_of_lt enough))
    have here : readCharacter (jsonEscape c ++ (text.flatMap jsonEscape ++ '"' :: rest)) =
        .ok (c, text.flatMap jsonEscape ++ '"' :: rest) := readCharacter_jsonEscape c _
    have later : readCharacters bound (text.flatMap jsonEscape ++ '"' :: rest) = .ok (text, rest) :=
      ih (Nat.lt_of_succ_lt_succ enough)
    obtain ⟨first, others, escaped, noQuote⟩ := exists_cons_jsonEscape c
    rw [List.flatMap_cons, List.append_assoc]
    rw [escaped, List.cons_append] at here ⊢
    rw [readCharacters_succ_of_ne noQuote, here]
    show readCharacters bound _ >>= _ = _
    rw [later]
    rfl

/-- Escaping makes no text shorter. -/
theorem length_le_flatMap_jsonEscape (text : List Char) :
    text.length ≤ (text.flatMap jsonEscape).length := by
  induction text with
  | nil => exact Nat.le_refl 0
  | cons c text ih =>
    obtain ⟨first, others, escaped, _⟩ := exists_cons_jsonEscape c
    simp only [List.flatMap_cons, escaped, List.length_append, List.length_cons]
    omega

/-- A quoted text is a quote, the escaped characters and another quote. -/
theorem jsonQuoted_append (text : String) (rest : List Char) :
    jsonQuoted text ++ rest = '"' :: (text.toList.flatMap jsonEscape ++ '"' :: rest) := by
  simp only [jsonQuoted, List.cons_append, List.append_assoc, List.nil_append]

/-- A quoted text is read as the text. -/
theorem readString_flatMap (text : String) (rest : List Char) :
    readString (text.toList.flatMap jsonEscape ++ '"' :: rest) = .ok (text, rest) := by
  have short := length_le_flatMap_jsonEscape text.toList
  have enough : text.toList.length <
      (text.toList.flatMap jsonEscape ++ '"' :: rest).length + 1 := by
    simp only [List.length_append]
    omega
  rw [readString, readCharacters_flatMap text.toList rest enough]
  exact congrArg (fun result => Except.ok (result, rest)) String.ofList_toList

end Redaction.Json

import Mathlib.Data.List.TakeWhile
import Redaction.Proofs.Fallible
import Redaction.Proofs.Json.RoundTrip

/-!
# The grammar of JSON texts

Which texts spell a document is said here without a reader: blanks may stand around every element,
and each character of a quoted text has several spellings. The readers of the lexical elements
accept exactly these spellings.
-/

namespace Redaction.Json

open Number (EndsNumber)

/-- Whether a text consists of blanks. -/
def Blank (text : List Char) : Prop := ∀ c ∈ text, isBlank c = true

/-- Whether a text is a mark with blanks around it. -/
def Joint (mark : Char) (text : List Char) : Prop :=
  ∃ before after, Blank before ∧ Blank after ∧ text = before ++ mark :: after

/-- Whether a text may stand in front of an element: a comma is needed in front of each but the
first. -/
def Lead (first : Bool) (text : List Char) : Prop := if first then Blank text else Joint ',' text

/-- The letters behind a backslash with the characters that they stand for. -/
def shortEscapes : List (Char × Char) :=
  [('"', '"'), ('\\', '\\'), ('/', '/'), ('b', '\x08'), ('f', '\x0c'), ('n', '\n'), ('r', '\r'),
    ('t', '\t')]

/-- The code units of a character in UTF-16. -/
def codeUnits (c : Char) : List Nat :=
  if c.toNat < 0x10000 then [c.toNat]
  else [0xD800 + (c.toNat - 0x10000) / 0x400, 0xDC00 + (c.toNat - 0x10000) % 0x400]

/-- Whether a text escapes code units one by one with four hexadecimal digits each. -/
def SpellsUnits : List Nat → List Char → Prop
  | [], text => text = []
  | unit :: units, text => ∃ a b c d later, hexNumber? a b c d = some unit ∧
      SpellsUnits units later ∧ text = '\\' :: 'u' :: a :: b :: c :: d :: later

/-- Whether a text spells a character of a quoted text. -/
inductive SpellsCharacter (c : Char) : List Char → Prop where
  /-- A character may stand for itself if it is no quote, no backslash and no control character. -/
  | plain (noQuote : c ≠ '"') (noBackslash : c ≠ '\\') (printed : 0x20 ≤ c.toNat) :
    SpellsCharacter c [c]
  /-- Some characters have a letter behind a backslash. -/
  | short {letter : Char} (known : (letter, c) ∈ shortEscapes) : SpellsCharacter c ['\\', letter]
  /-- Every character may be escaped by its code units. -/
  | units {text : List Char} (escaped : SpellsUnits (codeUnits c) text) : SpellsCharacter c text

/-- Whether a text spells characters one after the other. -/
def SpellsCharacters : List Char → List Char → Prop
  | [], text => text = []
  | c :: chars, text => ∃ here later, SpellsCharacter c here ∧ SpellsCharacters chars later ∧
      text = here ++ later

/-- Whether a text spells a quoted text. -/
def SpellsString (value : String) (text : List Char) : Prop :=
  ∃ inside, SpellsCharacters value.toList inside ∧ text = '"' :: inside ++ ['"']

mutual

/-- Whether a text spells the document. -/
def Spelled : Json → List Char → Prop
  | .null, text => text = "null".toList
  | .bool value, text => text = boolText value
  | .number value, text => Number.read text = .ok (value, [])
  | .string value, text => SpellsString value text
  | .array items, text => ∃ inside, SpelledItems true items inside ∧ text = '[' :: inside ++ [']']
  | .object members, text =>
    ∃ inside, SpelledMembers true members inside ∧ text = '\x7b' :: inside ++ ['\x7d']

/-- Whether a text spells the items of a list, from its first item or from a later one on. -/
def SpelledItems : Bool → List Json → List Char → Prop
  | _, [], text => Blank text
  | first, item :: items, text => ∃ lead here later, Lead first lead ∧ item.Spelled here ∧
      SpelledItems false items later ∧ text = lead ++ here ++ later

/-- Whether a text spells the members of an object, from its first member or from a later one on.
Members with the same key are not ruled out. -/
def SpelledMembers : Bool → List (String × Json) → List Char → Prop
  | _, [], text => Blank text
  | first, (key, value) :: members, text => ∃ lead name colon here later, Lead first lead ∧
      SpellsString key name ∧ Joint ':' colon ∧ value.Spelled here ∧
      SpelledMembers false members later ∧ text = lead ++ name ++ colon ++ here ++ later

end

/-- Whether a text spells the document, with blanks around it. -/
def SpelledText (document : Json) (text : List Char) : Prop :=
  ∃ before here after, Blank before ∧ document.Spelled here ∧ Blank after ∧
    text = before ++ here ++ after

/-- Whether a text begins, behind blanks, with something of a kind and goes on with the rest. -/
def Begins (kind : List Char → Prop) (text rest : List Char) : Prop :=
  ∃ blanks here, Blank blanks ∧ kind here ∧ text = blanks ++ here ++ rest

/-! ## Blanks -/

/-- The empty text is blank. -/
theorem blank_nil : Blank [] := nofun

/-- Blanks next to each other are blanks. -/
theorem Blank.append {before after : List Char} (first : Blank before) (second : Blank after) :
    Blank (before ++ after) := by
  intro c present
  rcases List.mem_append.mp present with here | there
  · exact first c here
  · exact second c there

/-- Blanks are skipped. -/
theorem skipBlanks_append {blanks : List Char} (blank : Blank blanks) (rest : List Char) :
    skipBlanks (blanks ++ rest) = skipBlanks rest :=
  List.dropWhile_append_of_pos blank

/-- Only blanks are skipped. -/
theorem exists_blanks (text : List Char) :
    ∃ blanks, Blank blanks ∧ text = blanks ++ skipBlanks text := by
  refine ⟨text.takeWhile isBlank, ?_, List.takeWhile_append_dropWhile.symm⟩
  exact fun c present => List.mem_takeWhile_imp present

/-- Nothing is left if all is blank. -/
theorem skipBlanks_eq_nil_iff {text : List Char} : skipBlanks text = [] ↔ Blank text :=
  List.dropWhile_eq_nil_iff

/-- The rest begins with the first character that is not blank. -/
theorem skipBlanks_eq_cons_iff {text rest : List Char} {c : Char} (solid : isBlank c = false) :
    skipBlanks text = c :: rest ↔ Begins (· = [c]) text rest := by
  constructor
  · intro skipped
    obtain ⟨blanks, blank, whole⟩ := exists_blanks text
    refine ⟨blanks, [c], blank, rfl, ?_⟩
    rw [whole, skipped, List.append_assoc, List.singleton_append]
  · rintro ⟨blanks, _, blank, rfl, rfl⟩
    rw [List.append_assoc, skipBlanks_append blank, List.singleton_append, skipBlanks_of_not solid]

/-- Nothing that is not skipped begins with a blank. -/
theorem isBlank_of_skipBlanks {text rest : List Char} {c : Char}
    (skipped : skipBlanks text = c :: rest) : isBlank c = false := by
  have stops := List.head?_dropWhile_not isBlank text
  rw [skipBlanks] at skipped
  rw [skipped] at stops
  exact stops

/-- A number ends in front of a blank. -/
theorem endsNumber_blank {blanks rest : List Char} (blank : Blank blanks) (ends : EndsNumber rest) :
    EndsNumber (blanks ++ rest) := by
  cases blanks with
  | nil => exact ends
  | cons c later =>
    refine Number.endsNumber_cons ?_ _
    have space : isBlank c = true := blank c List.mem_cons_self
    simp only [isBlank, Bool.or_eq_true, decide_eq_true_eq] at space
    rcases space with ((rfl | rfl) | rfl) | rfl <;> rfl

/-! ## Quoted texts -/

/-- A hexadecimal digit is less than 16. -/
theorem hexDigit?_lt {c : Char} {n : Nat} (digit : hexDigit? c = some n) : n < 16 := by
  have order {a b : Char} : a ≤ b ↔ a.toNat ≤ b.toNat := by
    rw [Char.le_def, UInt32.le_iff_toNat_le]
    rfl
  simp only [hexDigit?, order] at digit
  have bounds : '0'.toNat = 48 ∧ '9'.toNat = 57 ∧ 'a'.toNat = 97 ∧ 'f'.toNat = 102 ∧
      'A'.toNat = 65 ∧ 'F'.toNat = 70 := by decide
  obtain ⟨zero, nine, a, f, upperA, upperF⟩ := bounds
  rw [zero, nine, a, f, upperA, upperF] at digit
  split at digit
  · cases digit; omega
  split at digit
  · cases digit; omega
  split at digit
  · cases digit; omega
  · cases digit

/-- Four hexadecimal digits write a number of 16 bits. -/
theorem hexNumber?_lt {a b c d : Char} {n : Nat} (written : hexNumber? a b c d = some n) :
    n < 0x10000 := by
  simp only [hexNumber?, bind, Option.bind_eq_some_iff, Option.some.injEq] at written
  obtain ⟨w, first, x, second, y, third, z, fourth, rfl⟩ := written
  have := hexDigit?_lt first
  have := hexDigit?_lt second
  have := hexDigit?_lt third
  have := hexDigit?_lt fourth
  omega

/-- The digits of an escape are read exactly if they write a number. -/
theorem readHex_eq_ok_iff {text rest : List Char} {n : Nat} :
    readHex text = .ok (n, rest) ↔
      ∃ a b c d, hexNumber? a b c d = some n ∧ text = a :: b :: c :: d :: rest := by
  constructor
  · intro read
    unfold readHex at read
    split at read
    · next a b c d later =>
      split at read
      · next m written =>
        cases read
        exact ⟨a, b, c, d, written, rfl⟩
      · cases read
    · split at read <;> cases read
  · rintro ⟨a, b, c, d, written, rfl⟩
    simp only [readHex, written]

/-- A number that belongs to a character is the number of that character. -/
theorem toNat_ofNat {n : Nat} (valid : n.isValidChar) : (Char.ofNat n).toNat = n := by
  rw [Char.ofNat, dif_pos valid]
  rfl

/-- What a number is that is no surrogate. -/
theorem no_surrogate {n : Nat} (noTrail : ¬ isTrailingSurrogate n = true)
    (noLead : ¬ isLeadingSurrogate n = true) : n < 0xD800 ∨ 0xDFFF < n := by
  simp only [isTrailingSurrogate, isLeadingSurrogate, Bool.and_eq_true, decide_eq_true_eq]
    at noTrail noLead
  omega

/-- A number of 16 bits that is no surrogate is the code unit of its character. -/
theorem codeUnits_ofNat {n : Nat} (small : n < 0x10000) (noTrail : ¬ isTrailingSurrogate n = true)
    (noLead : ¬ isLeadingSurrogate n = true) : codeUnits (Char.ofNat n) = [n] := by
  have valid : n.isValidChar := by
    have outside := no_surrogate noTrail noLead
    simp only [Nat.isValidChar]
    omega
  rw [codeUnits, toNat_ofNat valid, if_pos small]

/-- The halves of a surrogate pair are the code units of their character. -/
theorem codeUnits_pair {high low : Nat} (leads : isLeadingSurrogate high = true)
    (trails : isTrailingSurrogate low = true) :
    codeUnits (Char.ofNat ((high - 0xD800) * 0x400 + (low - 0xDC00) + 0x10000)) = [high, low] := by
  simp only [isTrailingSurrogate, isLeadingSurrogate, Bool.and_eq_true, decide_eq_true_eq]
    at leads trails
  have valid : ((high - 0xD800) * 0x400 + (low - 0xDC00) + 0x10000).isValidChar := by
    simp only [Nat.isValidChar]
    omega
  have large : ¬ (high - 0xD800) * 0x400 + (low - 0xDC00) + 0x10000 < 0x10000 := by omega
  have first : 0xD800 + ((high - 0xD800) * 0x400 + (low - 0xDC00) + 0x10000 - 0x10000) / 0x400 =
      high := by omega
  have second : 0xDC00 + ((high - 0xD800) * 0x400 + (low - 0xDC00) + 0x10000 - 0x10000) % 0x400 =
      low := by omega
  rw [codeUnits, toNat_ofNat valid, if_neg large, first, second]

/-- A leading surrogate is no trailing one. -/
theorem not_trailing_of_leading {n : Nat} (leads : isLeadingSurrogate n = true) :
    ¬ isTrailingSurrogate n = true := by
  simp only [isTrailingSurrogate, isLeadingSurrogate, Bool.and_eq_true, decide_eq_true_eq]
    at leads ⊢
  omega

/-- A character has one code unit, which is no surrogate, or it has the halves of a pair. -/
theorem codeUnits_cases (c : Char) :
    (∃ n, codeUnits c = [n] ∧ ¬ isTrailingSurrogate n = true ∧ ¬ isLeadingSurrogate n = true ∧
      Char.ofNat n = c) ∨
    (∃ high low, codeUnits c = [high, low] ∧ isLeadingSurrogate high = true ∧
      isTrailingSurrogate low = true ∧
      Char.ofNat ((high - 0xD800) * 0x400 + (low - 0xDC00) + 0x10000) = c) := by
  have valid : c.toNat.isValidChar := c.valid
  simp only [Nat.isValidChar] at valid
  unfold codeUnits
  simp only [isTrailingSurrogate, isLeadingSurrogate, Bool.and_eq_true, decide_eq_true_eq]
  split
  · next small =>
    exact .inl ⟨_, rfl, by omega, by omega, Char.ofNat_toNat c⟩
  · next large =>
    have whole : (0xD800 + (c.toNat - 0x10000) / 0x400 - 0xD800) * 0x400 +
        (0xDC00 + (c.toNat - 0x10000) % 0x400 - 0xDC00) + 0x10000 = c.toNat := by omega
    exact .inr ⟨_, _, rfl, by omega, by omega, by rw [whole, Char.ofNat_toNat]⟩

/-- A trailing surrogate is read exactly if it is escaped. -/
theorem readTrailingSurrogate_eq_ok_iff {text rest : List Char} {n : Nat} :
    readTrailingSurrogate text = .ok (n, rest) ↔ isTrailingSurrogate n = true ∧
      ∃ a b c d, hexNumber? a b c d = some n ∧
        text = '\\' :: 'u' :: a :: b :: c :: d :: rest := by
  constructor
  · intro read
    unfold readTrailingSurrogate at read
    split at read
    · cases read
    · split at read
      · cases read
      · obtain ⟨⟨m, later⟩, digits, tested⟩ := bind_eq_ok_iff.mp read
        obtain ⟨a, b, c, d, written, rfl⟩ := readHex_eq_ok_iff.mp digits
        dsimp only at tested
        split at tested
        · next trailing =>
          cases tested
          exact ⟨trailing, a, b, c, d, written, rfl⟩
        · cases tested
      · cases read
    · cases read
  · rintro ⟨trailing, a, b, c, d, written, rfl⟩
    refine bind_eq_ok_iff.mpr ⟨(n, rest), readHex_eq_ok_iff.mpr ⟨a, b, c, d, written, rfl⟩, ?_⟩
    exact if_pos trailing

/-- What stands behind the first escape is read as the character whose code units the escapes
spell. -/
theorem readCodePoint_eq_ok_iff {text rest : List Char} {c : Char} :
    readCodePoint text = .ok (c, rest) ↔
      ∃ escapes, SpellsUnits (codeUnits c) escapes ∧ '\\' :: 'u' :: text = escapes ++ rest := by
  constructor
  · intro read
    obtain ⟨⟨n, later⟩, digits, tested⟩ := bind_eq_ok_iff.mp read
    obtain ⟨w, x, y, z, written, rfl⟩ := readHex_eq_ok_iff.mp digits
    dsimp only at tested
    split at tested
    · cases tested
    next noTrail =>
    split at tested
    · next leads =>
      obtain ⟨⟨low, after⟩, half, joined⟩ := bind_eq_ok_iff.mp tested
      obtain ⟨trails, w', x', y', z', written', rfl⟩ := readTrailingSurrogate_eq_ok_iff.mp half
      obtain ⟨rfl, rfl⟩ := Prod.mk.inj (Except.ok.inj joined)
      rw [codeUnits_pair leads trails]
      exact ⟨['\\', 'u', w, x, y, z, '\\', 'u', w', x', y', z'],
        ⟨w, x, y, z, _, written, ⟨w', x', y', z', [], written', rfl, rfl⟩, rfl⟩, rfl⟩
    · next noLead =>
      cases tested
      rw [codeUnits_ofNat (hexNumber?_lt written) noTrail noLead]
      exact ⟨['\\', 'u', w, x, y, z], ⟨w, x, y, z, [], written, rfl, rfl⟩, rfl⟩
  · rintro ⟨escapes, spelled, whole⟩
    rcases codeUnits_cases c with ⟨n, units, noTrail, noLead, rfl⟩ |
      ⟨high, low, units, leads, trails, rfl⟩
    · rw [units] at spelled
      obtain ⟨w, x, y, z, _, written, rfl, rfl⟩ := spelled
      obtain rfl := (List.cons.inj (List.cons.inj whole).2).2
      refine bind_eq_ok_iff.mpr ⟨_, readHex_eq_ok_iff.mpr ⟨w, x, y, z, written, rfl⟩, ?_⟩
      simp only [noTrail, noLead]
      rfl
    · rw [units] at spelled
      obtain ⟨w, x, y, z, _, written, ⟨w', x', y', z', _, written', rfl, rfl⟩, rfl⟩ := spelled
      obtain rfl := (List.cons.inj (List.cons.inj whole).2).2
      refine bind_eq_ok_iff.mpr ⟨_, readHex_eq_ok_iff.mpr ⟨w, x, y, z, written, rfl⟩, ?_⟩
      simp only [not_trailing_of_leading leads, leads, if_true]
      exact bind_eq_ok_iff.mpr ⟨_, readTrailingSurrogate_eq_ok_iff.mpr
        ⟨trails, w', x', y', z', written', rfl⟩, rfl⟩

/-- A letter behind a backslash is read exactly if it is known. -/
theorem shortEscape?_eq_some_iff {letter c : Char} :
    shortEscape? letter = some c ↔ (letter, c) ∈ shortEscapes := by
  constructor
  · intro known
    unfold shortEscape? at known
    simp only [Bool.or_eq_true, decide_eq_true_eq] at known
    repeat' split at known
    · next same =>
      cases known
      rcases same with (rfl | rfl) | rfl <;> decide
    all_goals first
      | cases known; subst_vars; decide
      | cases known
  · intro known
    simp only [shortEscapes, List.mem_cons, Prod.mk.injEq, List.not_mem_nil, or_false] at known
    rcases known with ⟨rfl, rfl⟩ | ⟨rfl, rfl⟩ | ⟨rfl, rfl⟩ | ⟨rfl, rfl⟩ | ⟨rfl, rfl⟩ | ⟨rfl, rfl⟩ |
      ⟨rfl, rfl⟩ | ⟨rfl, rfl⟩ <;> rfl

/-- The code units of a character are escaped in a way that begins with an escape. -/
theorem SpellsUnits.exists_cons {c : Char} {text : List Char}
    (escaped : SpellsUnits (codeUnits c) text) : ∃ later, text = '\\' :: 'u' :: later := by
  rcases codeUnits_cases c with ⟨n, units, _⟩ | ⟨high, low, units, _⟩ <;>
  · rw [units] at escaped
    obtain ⟨_, _, _, _, _, _, _, rfl⟩ := escaped
    exact ⟨_, rfl⟩

/-- The spelling of a character begins with no quote. -/
theorem SpellsCharacter.exists_cons {c : Char} {text : List Char}
    (spelled : SpellsCharacter c text) : ∃ first later, text = first :: later ∧ first ≠ '"' := by
  cases spelled with
  | plain noQuote => exact ⟨c, [], rfl, noQuote⟩
  | short known => exact ⟨_, _, rfl, by decide⟩
  | units escaped =>
    obtain ⟨later, rfl⟩ := escaped.exists_cons
    exact ⟨_, _, rfl, by decide⟩

/-- Where no quote stands, a character is read exactly if it is spelled there. -/
theorem readCharacter_eq_ok_iff {text rest : List Char} {c : Char}
    (noQuote : text.head? ≠ some '"') :
    readCharacter text = .ok (c, rest) ↔ ∃ here, SpellsCharacter c here ∧ text = here ++ rest := by
  constructor
  · intro read
    unfold readCharacter at read
    split at read
    · cases read
    · cases read
    · next later =>
      obtain ⟨escapes, spelled, whole⟩ := readCodePoint_eq_ok_iff.mp read
      exact ⟨escapes, .units spelled, whole⟩
    · next letter later _ =>
      split at read
      · next known =>
        cases read
        exact ⟨['\\', letter], .short (shortEscape?_eq_some_iff.mp known), rfl⟩
      · cases read
    · next first later noEnd _ noLetter =>
      split at read
      · cases read
      · next printed =>
        cases read
        have noBackslash : c ≠ '\\' := by
          rintro rfl
          match rest with
          | [] => exact absurd rfl (noEnd rfl)
          | letter :: others => exact noLetter letter others rfl rfl
        exact ⟨[c], .plain (fun same => noQuote (congrArg some same)) noBackslash
          (Nat.not_lt.mp printed), rfl⟩
  · rintro ⟨here, spelled, rfl⟩
    cases spelled with
    | plain _ noBackslash printed => exact readCharacter_of_ne noBackslash printed rest
    | short known =>
      simp only [shortEscapes, List.mem_cons, Prod.mk.injEq, List.not_mem_nil, or_false] at known
      rcases known with ⟨rfl, rfl⟩ | ⟨rfl, rfl⟩ | ⟨rfl, rfl⟩ | ⟨rfl, rfl⟩ | ⟨rfl, rfl⟩ |
        ⟨rfl, rfl⟩ | ⟨rfl, rfl⟩ | ⟨rfl, rfl⟩ <;> rfl
    | units escaped =>
      obtain ⟨later, whole⟩ := escaped.exists_cons
      rw [whole]
      exact readCodePoint_eq_ok_iff.mpr ⟨here, escaped, by rw [whole]; rfl⟩

/-- What is read up to a quote is spelled there. -/
theorem spells_of_readCharacters {bound : Nat} {text rest chars : List Char}
    (read : readCharacters bound text = .ok (chars, rest)) :
    ∃ inside, SpellsCharacters chars inside ∧ text = inside ++ '"' :: rest := by
  induction bound generalizing text chars with
  | zero => cases read
  | succ bound ih =>
    match text with
    | [] => cases read
    | first :: others =>
      by_cases quote : first = '"'
      · subst quote
        cases read
        exact ⟨[], rfl, rfl⟩
      rw [readCharacters_succ_of_ne quote] at read
      obtain ⟨⟨c, behind⟩, here, read⟩ := bind_eq_ok_iff.mp read
      obtain ⟨⟨later, left⟩, there, read⟩ := bind_eq_ok_iff.mp read
      cases read
      have noQuote : (first :: others).head? ≠ some '"' := fun same => quote (Option.some.inj same)
      obtain ⟨spelling, spelled, whole⟩ := (readCharacter_eq_ok_iff noQuote).mp here
      obtain ⟨inside, spelledLater, rfl⟩ := ih there
      exact ⟨spelling ++ inside, ⟨spelling, inside, spelled, spelledLater, rfl⟩,
        by rw [whole, List.append_assoc]⟩

/-- Spelled characters are read up to the quote behind them. -/
theorem readCharacters_of_spells {bound : Nat} {inside chars : List Char} (rest : List Char)
    (spelled : SpellsCharacters chars inside) (enough : chars.length < bound) :
    readCharacters bound (inside ++ '"' :: rest) = .ok (chars, rest) := by
  induction chars generalizing bound inside with
  | nil =>
    obtain rfl : inside = [] := spelled
    obtain ⟨bound, rfl⟩ := Nat.exists_eq_succ_of_ne_zero (Nat.ne_of_gt enough)
    rfl
  | cons c chars ih =>
    obtain ⟨bound, rfl⟩ := Nat.exists_eq_succ_of_ne_zero (Nat.ne_of_gt (Nat.zero_lt_of_lt enough))
    obtain ⟨here, later, spelledHere, spelledLater, rfl⟩ := spelled
    obtain ⟨first, others, begins, noQuote⟩ := spelledHere.exists_cons
    have one : readCharacter (here ++ (later ++ '"' :: rest)) = .ok (c, later ++ '"' :: rest) := by
      refine (readCharacter_eq_ok_iff ?_).mpr ⟨here, spelledHere, rfl⟩
      rw [begins]
      exact fun same => noQuote (Option.some.inj same)
    have others : readCharacters bound (later ++ '"' :: rest) = .ok (chars, rest) :=
      ih spelledLater (Nat.lt_of_succ_lt_succ enough)
    rw [List.append_assoc]
    rw [begins, List.cons_append] at one ⊢
    rw [readCharacters_succ_of_ne noQuote]
    exact bind_eq_ok_iff.mpr ⟨_, one, bind_eq_ok_iff.mpr ⟨_, others, rfl⟩⟩

/-- Each character takes at least one character of the text. -/
theorem SpellsCharacters.length_le {chars inside : List Char}
    (spelled : SpellsCharacters chars inside) : chars.length ≤ inside.length := by
  induction chars generalizing inside with
  | nil => exact Nat.zero_le _
  | cons c chars ih =>
    obtain ⟨here, later, spelledHere, spelledLater, rfl⟩ := spelled
    obtain ⟨first, others, rfl, _⟩ := spelledHere.exists_cons
    have less := ih spelledLater
    simp only [List.length_append, List.length_cons]
    omega

/-- Behind an opening quote a text is read exactly if it is spelled there. -/
theorem readString_eq_ok_iff {text rest : List Char} {value : String} :
    readString text = .ok (value, rest) ↔
      ∃ inside, SpellsCharacters value.toList inside ∧ text = inside ++ '"' :: rest := by
  constructor
  · intro read
    obtain ⟨⟨chars, left⟩, taken, done⟩ := bind_eq_ok_iff.mp read
    cases done
    rw [String.toList_ofList]
    exact spells_of_readCharacters taken
  · rintro ⟨inside, spelled, rfl⟩
    have short := spelled.length_le
    refine bind_eq_ok_iff.mpr ⟨_, readCharacters_of_spells rest spelled ?_, ?_⟩
    · simp only [List.length_append]
      omega
    · exact congrArg (fun text => Except.ok (text, rest)) String.ofList_toList

/-! ## Words, colons and what separates elements -/

/-- A word is read exactly if it stands there. -/
theorem readWord_eq_ok_iff {word text rest : List Char} :
    readWord word text = .ok rest ↔ text = word ++ rest := by
  induction word generalizing text with
  | nil => exact ⟨Except.ok.inj, congrArg Except.ok⟩
  | cons expected word ih =>
    match text with
    | [] => exact ⟨nofun, nofun⟩
    | c :: later =>
      rw [readWord, List.cons_append, List.cons.injEq]
      split
      · next same => exact ih.trans ⟨fun whole => ⟨same, whole⟩, fun whole => whole.2⟩
      · next different => exact ⟨nofun, fun whole => absurd whole.1 different⟩

/-- A colon is read exactly if it stands behind blanks. -/
theorem readColon_eq_ok_iff {text rest : List Char} :
    readColon text = .ok rest ↔ Begins (· = [':']) text rest := by
  rw [← skipBlanks_eq_cons_iff rfl, readColon]
  split
  · next none => rw [none]; exact ⟨nofun, nofun⟩
  · next found => rw [found]; exact ⟨fun same => congrArg _ (Except.ok.inj same), by rintro ⟨⟩; rfl⟩
  · next other found =>
    rw [found]
    refine ⟨nofun, fun same => ?_⟩
    cases same
    exact (other rfl).elim

/-- Blanks behind a lead belong to it. -/
theorem Lead.append {first : Bool} {lead blanks : List Char} (leads : Lead first lead)
    (blank : Blank blanks) : Lead first (lead ++ blanks) := by
  cases first with
  | true => exact Blank.append leads blank
  | false =>
    obtain ⟨before, after, blankBefore, blankAfter, rfl⟩ := leads
    exact ⟨before, after ++ blanks, blankBefore, blankAfter.append blank,
      by rw [List.append_assoc, List.cons_append]⟩

/-- The end of a list is found exactly if its bracket stands behind blanks. -/
theorem nextItem_eq_done_iff {first : Bool} {text rest : List Char} :
    nextItem first text = .ok (.done rest) ↔ Begins (· = [']']) text rest := by
  rw [← skipBlanks_eq_cons_iff rfl]
  cases skipped : skipBlanks text with
  | nil =>
    simp only [nextItem, skipped]
    exact ⟨by rintro ⟨⟩, by rintro ⟨⟩⟩
  | cons c later =>
    simp only [nextItem, skipped]
    split
    · next bracket =>
      subst bracket
      exact ⟨by rintro ⟨⟩; rfl, by rintro ⟨⟩; rfl⟩
    · next noBracket =>
      refine ⟨fun found => ?_, fun same => absurd (List.cons.inj same).1 noBracket⟩
      repeat' split at found
      all_goals cases found

/-- Behind the blanks in front of a mark stands the mark. -/
theorem skipBlanks_joint {mark : Char} {joint : List Char} (solid : isBlank mark = false)
    (joins : Joint mark joint) (rest : List Char) :
    ∃ after, Blank after ∧ skipBlanks (joint ++ rest) = mark :: (after ++ rest) := by
  obtain ⟨before, after, blankBefore, blankAfter, rfl⟩ := joins
  refine ⟨after, blankAfter, ?_⟩
  rw [List.append_assoc, skipBlanks_append blankBefore, List.cons_append, skipBlanks_of_not solid]

/-- Behind a lead the text goes on at once, or behind the comma. -/
theorem nextItem_of_lead {first : Bool} {lead later : List Char} {c : Char}
    (leads : Lead first lead) (solid : isBlank c = false) (noBracket : c ≠ ']') :
    nextItem first (lead ++ c :: later) = .ok (.item (c :: later)) := by
  cases first with
  | true =>
    simp only [nextItem, skipBlanks_append leads, skipBlanks_of_not solid, noBracket, if_false,
      if_true]
  | false =>
    obtain ⟨after, blankAfter, comma⟩ := skipBlanks_joint rfl leads (c :: later)
    have behind : skipBlanks (after ++ c :: later) = c :: later := by
      rw [skipBlanks_append blankAfter, skipBlanks_of_not solid]
    have other : ¬ ',' = ']' := by decide
    simp only [nextItem, comma, behind, other, Bool.false_eq_true, if_false, if_true]
    split
    · next none => cases none
    · next same => exact absurd (List.cons.inj same).1 noBracket
    · rfl

/-- An item is found exactly if a lead stands in front of it. -/
theorem nextItem_eq_item_iff {first : Bool} {text rest : List Char} :
    nextItem first text = .ok (.item rest) ↔ ∃ lead c later, Lead first lead ∧
      isBlank c = false ∧ c ≠ ']' ∧ rest = c :: later ∧ text = lead ++ rest := by
  constructor
  · intro found
    obtain ⟨blanks, blank, whole⟩ := exists_blanks text
    cases skipped : skipBlanks text with
    | nil =>
      simp only [nextItem, skipped] at found
      cases found
    | cons c later =>
      rw [skipped] at whole
      simp only [nextItem, skipped] at found
      split at found
      · cases found
      next noBracket =>
      cases first with
      | true =>
        cases found
        exact ⟨blanks, c, later, blank, isBlank_of_skipBlanks skipped, noBracket, rfl, whole⟩
      | false =>
        rw [if_neg Bool.false_ne_true] at found
        split at found
        · next comma =>
          subst comma
          obtain ⟨others, blankOthers, behind⟩ := exists_blanks later
          split at found
          · cases found
          · cases found
          · next noEnd noBracket =>
            obtain ⟨d, left, here⟩ := List.exists_cons_of_ne_nil noEnd
            obtain rfl : skipBlanks later = rest := by cases found; rfl
            refine ⟨blanks ++ ',' :: others, d, left, ⟨blanks, others, blank, blankOthers, rfl⟩,
              isBlank_of_skipBlanks here, ?_, here, ?_⟩
            · rintro rfl
              exact noBracket left here
            · rw [whole, List.append_assoc, List.cons_append, ← behind]
        · cases found
  · rintro ⟨lead, c, later, leads, solid, noBracket, rfl, rfl⟩
    exact nextItem_of_lead leads solid noBracket

/-- The end of an object is found exactly if its brace stands behind blanks. -/
theorem nextMember_eq_done_iff {first : Bool} {text rest : List Char} :
    nextMember first text = .ok (.done rest) ↔ Begins (· = ['\x7d']) text rest := by
  rw [← skipBlanks_eq_cons_iff rfl]
  cases skipped : skipBlanks text with
  | nil =>
    simp only [nextMember, skipped]
    exact ⟨by rintro ⟨⟩, by rintro ⟨⟩⟩
  | cons c later =>
    simp only [nextMember, skipped]
    split
    · next brace =>
      subst brace
      exact ⟨by rintro ⟨⟩; rfl, by rintro ⟨⟩; rfl⟩
    · next noBrace =>
      refine ⟨fun found => ?_, fun same => absurd (List.cons.inj same).1 noBrace⟩
      repeat' split at found
      all_goals cases found

/-- A key is found exactly if a lead stands in front of its quote. -/
theorem nextMember_eq_key_iff {first : Bool} {text rest : List Char} :
    nextMember first text = .ok (.key rest) ↔ ∃ lead, Lead first lead ∧
      text = lead ++ '"' :: rest := by
  constructor
  · intro found
    obtain ⟨blanks, blank, whole⟩ := exists_blanks text
    cases skipped : skipBlanks text with
    | nil =>
      simp only [nextMember, skipped] at found
      cases found
    | cons c later =>
      rw [skipped] at whole
      simp only [nextMember, skipped] at found
      split at found
      · cases found
      cases first with
      | true =>
        rw [if_pos rfl] at found
        split at found
        · next quote =>
          subst quote
          cases found
          exact ⟨blanks, blank, whole⟩
        · cases found
      | false =>
        rw [if_neg Bool.false_ne_true] at found
        split at found
        · next comma =>
          subst comma
          obtain ⟨others, blankOthers, behind⟩ := exists_blanks later
          split at found
          · cases found
          · next here =>
            cases found
            refine ⟨blanks ++ ',' :: others, ⟨blanks, others, blank, blankOthers, rfl⟩, ?_⟩
            rw [whole, List.append_assoc, List.cons_append, ← here, ← behind]
          · cases found
          · cases found
        · cases found
  · rintro ⟨lead, leads, rfl⟩
    cases first with
    | true =>
      simp only [nextMember, skipBlanks_append leads, skipBlanks_of_not (rfl : isBlank '"' = false)]
      rfl
    | false =>
      obtain ⟨after, blankAfter, comma⟩ := skipBlanks_joint rfl leads ('"' :: rest)
      have behind : skipBlanks (after ++ '"' :: rest) = '"' :: rest := by
        rw [skipBlanks_append blankAfter, skipBlanks_of_not rfl]
      simp only [nextMember, comma, behind]
      rfl

/-! ## What a text begins with -/

/-- Blanks in front make no difference to what a text begins with. -/
theorem begins_skipBlanks_iff {kind : List Char → Prop} {text rest : List Char}
    (solid : ∀ here, kind here → ∃ c later, here = c :: later ∧ isBlank c = false) :
    Begins kind (skipBlanks text) rest ↔ Begins kind text rest := by
  constructor
  · rintro ⟨blanks, here, blank, spelled, whole⟩
    obtain ⟨before, blankBefore, all⟩ := exists_blanks text
    exact ⟨before ++ blanks, here, blankBefore.append blank, spelled,
      by rw [all, whole]; simp only [List.append_assoc]⟩
  · rintro ⟨blanks, here, blank, spelled, rfl⟩
    obtain ⟨c, later, rfl, noBlank⟩ := solid here spelled
    refine ⟨[], c :: later, blank_nil, spelled, ?_⟩
    rw [List.append_assoc, skipBlanks_append blank, List.cons_append, skipBlanks_of_not noBlank]
    rfl

/-- A text begins with a word exactly if its first letter is found and the others are read. -/
theorem begins_word_iff {first : Char} {word text rest : List Char}
    (solid : isBlank first = false) :
    Begins (· = first :: word) text rest ↔
      ∃ behind, skipBlanks text = first :: behind ∧ readWord word behind = .ok rest := by
  simp only [skipBlanks_eq_cons_iff solid, readWord_eq_ok_iff]
  constructor
  · rintro ⟨blanks, _, blank, rfl, rfl⟩
    exact ⟨word ++ rest, ⟨blanks, [first], blank, rfl, by simp⟩, rfl⟩
  · rintro ⟨_, ⟨blanks, _, blank, rfl, rfl⟩, rfl⟩
    exact ⟨blanks, first :: word, blank, rfl, by simp⟩

/-- A text begins with a quoted text exactly if a quote is found and the characters are read. -/
theorem begins_string_iff {value : String} {text rest : List Char} :
    Begins (SpellsString value) text rest ↔
      ∃ behind, skipBlanks text = '"' :: behind ∧ readString behind = .ok (value, rest) := by
  simp only [skipBlanks_eq_cons_iff (rfl : isBlank '"' = false), readString_eq_ok_iff]
  constructor
  · rintro ⟨blanks, _, blank, ⟨inside, spelled, rfl⟩, rfl⟩
    exact ⟨inside ++ '"' :: rest, ⟨blanks, ['"'], blank, rfl, by simp⟩, inside, spelled, rfl⟩
  · rintro ⟨_, ⟨blanks, _, blank, rfl, rfl⟩, inside, spelled, rfl⟩
    exact ⟨blanks, _, blank, ⟨inside, spelled, rfl⟩, by simp⟩

end Redaction.Json

import Redaction.Json.Writer
import Redaction.Proofs.Json.Quoted
import Redaction.Proofs.Members
import Redaction.Proofs.Number.Numeral

/-!
# Reading what was written

The compact text of a document is read as that document, whatever its nesting and its texts are. It
takes two things for granted: the keys of each object ascend, since that is the order in which the
reader keeps them, and each float is read back from its own text.
-/

namespace Redaction

namespace Text

/-- Texts with a separator in front of each, or in front of each but the first. -/
def separated (first : Bool) (separator : Char) : List (List Char) → List Char
  | [] => []
  | text :: texts => (if first then [] else [separator]) ++ text ++ separated false separator texts

/-- Joined texts have no separator in front of the first one. -/
theorem joined_eq_separated (separator : Char) (texts : List (List Char)) :
    joined separator texts = separated true separator texts := by
  induction texts with
  | nil => rfl
  | cons text rest ih =>
    cases rest with
    | nil => simp only [joined, separated, if_true, List.nil_append, List.append_nil]
    | cons next rest =>
      simp only [separated, if_true, List.nil_append] at ih
      simp only [joined, ih, separated, if_true, Bool.false_eq_true, if_false, List.nil_append,
        List.cons_append]

end Text

namespace Json

open Number (EndsNumber)
open Text (jsonQuoted jsonEscape joined separated joined_eq_separated)

mutual

/-- Whether each number of the document is read back from its text. -/
def Legible : Json → Prop
  | .number value => Number.read value.text = .ok (value, [])
  | .array items => LegibleItems items
  | .object members => LegibleMembers members
  | _ => True

/-- Whether all items are legible. -/
def LegibleItems : List Json → Prop
  | [] => True
  | item :: rest => item.Legible ∧ LegibleItems rest

/-- Whether the values of all members are legible. -/
def LegibleMembers : List (String × Json) → Prop
  | [] => True
  | (_, value) :: rest => value.Legible ∧ LegibleMembers rest

end

/-- No digit is a blank. -/
theorem isBlank_of_isDigit {c : Char} (digit : c.isDigit = true) : isBlank c = false := by
  simp only [isBlank, Bool.or_eq_false_iff, decide_eq_false_iff_not]
  refine ⟨⟨⟨?_, ?_⟩, ?_⟩, ?_⟩ <;> (rintro rfl; cases digit)

/-- The text of a legible document begins with a character that opens a value. -/
theorem exists_cons_chars {document : Json} (legible : document.Legible) :
    ∃ c later, document.chars = c :: later ∧ isBlank c = false ∧ c ≠ ']' := by
  match document with
  | .null => exact ⟨_, _, rfl, rfl, by decide⟩
  | .bool true => exact ⟨_, _, rfl, rfl, by decide⟩
  | .bool false => exact ⟨_, _, rfl, rfl, by decide⟩
  | .string value => exact ⟨_, _, rfl, rfl, by decide⟩
  | .array items => exact ⟨_, _, rfl, rfl, by decide⟩
  | .object members => exact ⟨_, _, rfl, rfl, by decide⟩
  | .number value =>
    obtain ⟨c, later, text, begins⟩ := Number.exists_cons_of_read legible
    refine ⟨c, later, text, ?_⟩
    rcases begins with rfl | digit
    · exact ⟨rfl, by decide⟩
    · refine ⟨isBlank_of_isDigit digit, ?_⟩
      rintro rfl
      cases digit

/-- Where no blank stands there is nothing to skip. -/
theorem skipBlanks_of_not {c : Char} (solid : isBlank c = false) (rest : List Char) :
    skipBlanks (c :: rest) = c :: rest := by
  rw [skipBlanks, List.dropWhile_cons_of_neg (by rw [solid]; exact Bool.false_ne_true)]

section Steps

variable {bound : Nat} {first : Bool} {text here later rest : List Char}

/-- The next item begins at once or behind a comma. -/
theorem nextItem_chars {item : Json} (legible : item.Legible) (tail : List Char) :
    nextItem first ((if first then [] else [',']) ++ item.chars ++ tail) =
      .ok (.item (item.chars ++ tail)) := by
  obtain ⟨c, rest, text, solid, opens⟩ := exists_cons_chars legible
  rw [text]
  cases first with
  | true =>
    show nextItem true (c :: (rest ++ tail)) = _
    simp only [nextItem, skipBlanks_of_not solid, opens, if_false, if_true, List.cons_append]
  | false =>
    show nextItem false (',' :: c :: (rest ++ tail)) = _
    have comma : skipBlanks (',' :: c :: (rest ++ tail)) = ',' :: c :: (rest ++ tail) :=
      skipBlanks_of_not rfl _
    have noBracket : ¬ ',' = ']' := by decide
    simp only [nextItem, comma, noBracket, Bool.false_eq_true, if_false, if_true,
      skipBlanks_of_not solid]
    split
    · next none => cases none
    · next same => exact absurd (List.cons.inj same).1 opens
    · rfl

/-- The next key begins at once or behind a comma. -/
theorem nextMember_jsonQuoted (key : String) (tail : List Char) :
    nextMember first ((if first then [] else [',']) ++ jsonQuoted key ++ tail) =
      .ok (.key (key.toList.flatMap jsonEscape ++ '"' :: tail)) := by
  rw [List.append_assoc, jsonQuoted_append]
  cases first <;> rfl

/-- An item is read, and then the items behind it. -/
theorem readItems_succ {item : Json} {items : List Json}
    (next : nextItem first text = .ok (.item here))
    (value : readValue bound here = .ok (item, later))
    (others : readItems bound false later = .ok (items, rest)) :
    readItems (bound + 1) first text = .ok (item :: items, rest) := by
  rw [readItems, next]
  show readValue bound here >>= _ = _
  rw [value]
  show readItems bound false later >>= _ = _
  rw [others]
  rfl

/-- A member is read, and then the members behind it. -/
theorem readMembers_succ {key : String} {value : Json} {members : List (String × Json)}
    {behindKey behindColon : List Char} (next : nextMember first text = .ok (.key here))
    (name : readString here = .ok (key, behindKey)) (colon : readColon behindKey = .ok behindColon)
    (content : readValue bound behindColon = .ok (value, later))
    (others : readMembers bound false later = .ok (members, rest)) :
    readMembers (bound + 1) first text = .ok ((key, value) :: members, rest) := by
  rw [readMembers, next]
  show readString here >>= _ = _
  rw [name]
  show readColon behindKey >>= _ = _
  rw [colon]
  show readValue bound behindColon >>= _ = _
  rw [content]
  show readMembers bound false later >>= _ = _
  rw [others]
  rfl

/-- A number is read where one begins. -/
theorem readValue_number {value : Number} (legible : Number.read value.text = .ok (value, []))
    (ends : EndsNumber rest) :
    readValue (bound + 1) (value.text ++ rest) = .ok (.number value, rest) := by
  obtain ⟨c, later, begins, sign⟩ := Number.exists_cons_of_read legible
  have whole : readNumber (value.text ++ rest) = .ok (value, rest) := by
    rw [readNumber, Number.local_read value.text value [] rest ends legible]
    rfl
  have solid : isBlank c = false := by
    rcases sign with rfl | digit
    · rfl
    · exact isBlank_of_isDigit digit
  have opens : (c = '-' || c.isDigit) = true := by
    simpa only [Bool.or_eq_true, decide_eq_true_eq] using sign
  have others : c ≠ 'n' ∧ c ≠ 't' ∧ c ≠ 'f' ∧ c ≠ '"' ∧ c ≠ '[' ∧ c ≠ '\x7b' := by
    refine ⟨?_, ?_, ?_, ?_, ?_, ?_⟩ <;> (rintro rfl; cases opens)
  obtain ⟨noNull, noTrue, noFalse, noText, noList, noObject⟩ := others
  rw [begins, List.cons_append] at whole ⊢
  simp only [readValue, skipBlanks_of_not solid, noNull, noTrue, noFalse, noText, noList, noObject,
    if_false, opens, if_true, whole]
  rfl

end Steps

/-- A colon behind a key is taken. -/
theorem readColon_colon (rest : List Char) : readColon (':' :: rest) = .ok rest := rfl

/-- A number ends in front of the next element and in front of the end of its list or object. -/
theorem endsNumber_separated {separator : Char} (stops : Number.continuesNumber separator = false)
    {rest : List Char} (ends : EndsNumber rest) (texts : List (List Char)) :
    EndsNumber (separated false separator texts ++ rest) := by
  cases texts with
  | nil => exact ends
  | cons text texts => exact Number.endsNumber_cons stops _

mutual

/-- The text of a document is read as the document. -/
theorem readValue_chars : (document : Json) → document.Canonical → document.Legible →
    (bound : Nat) → (rest : List Char) → EndsNumber rest → document.chars.length ≤ bound →
    readValue bound (document.chars ++ rest) = .ok (document, rest)
  | document, _, legible, 0, rest, _, enough => by
    obtain ⟨c, later, text, _⟩ := exists_cons_chars legible
    rw [text] at enough
    exact absurd enough (Nat.not_succ_le_zero _)
  | .null, _, _, bound + 1, rest, _, _ => rfl
  | .bool true, _, _, bound + 1, rest, _, _ => rfl
  | .bool false, _, _, bound + 1, rest, _, _ => rfl
  | .number value, _, legible, bound + 1, rest, ends, _ => readValue_number legible ends
  | .string value, _, _, bound + 1, rest, _, _ => by
    rw [chars, jsonQuoted_append]
    show readString _ >>= _ = _
    rw [readString_flatMap]
    rfl
  | .array items, canonical, legible, bound + 1, rest, _, enough => by
    simp only [chars, joined_eq_separated, List.length_cons, List.length_append] at enough
    have inside := readItems_separated items canonical legible true bound rest (by omega)
    rw [chars, joined_eq_separated, List.cons_append, List.cons_append, List.append_assoc]
    show readItems bound true _ >>= _ = _
    rw [List.singleton_append, inside]
    rfl
  | .object members, canonical, legible, bound + 1, rest, _, enough => by
    simp only [chars, joined_eq_separated, List.length_cons, List.length_append] at enough
    have inside := readMembers_separated members canonical.2 legible true bound rest (by omega)
    rw [chars, joined_eq_separated, List.cons_append, List.cons_append, List.append_assoc]
    show readMembers bound true _ >>= _ = _
    rw [List.singleton_append, inside]
    exact congrArg (fun members => Except.ok (Json.object members, rest))
      (Members.ofList_of_ordered canonical.1)

/-- Written items are read as the items. -/
theorem readItems_separated : (items : List Json) → CanonicalItems items → LegibleItems items →
    (first : Bool) → (bound : Nat) → (rest : List Char) →
    (separated first ',' (itemChars items)).length < bound →
    readItems bound first (separated first ',' (itemChars items) ++ ']' :: rest) = .ok (items, rest)
  | _, _, _, _, 0, _, enough => absurd enough (Nat.not_lt_zero _)
  | [], _, _, first, bound + 1, rest, _ => by cases first <;> rfl
  | item :: items, canonical, legible, first, bound + 1, rest, enough => by
    obtain ⟨c, text, begins, _⟩ := exists_cons_chars legible.1
    have occupied : 0 < item.chars.length := by rw [begins]; exact Nat.zero_lt_succ _
    simp only [itemChars, separated, List.length_append] at enough
    rw [itemChars, separated, List.append_assoc]
    exact readItems_succ (nextItem_chars legible.1 _)
      (readValue_chars item canonical.1 legible.1 bound _
        (endsNumber_separated rfl (Number.endsNumber_cons rfl rest) _) (by omega))
      (readItems_separated items canonical.2 legible.2 false bound rest (by omega))

/-- Written members are read as the members. -/
theorem readMembers_separated : (members : List (String × Json)) → CanonicalMembers members →
    LegibleMembers members → (first : Bool) → (bound : Nat) → (rest : List Char) →
    (separated first ',' (memberChars members)).length < bound →
    readMembers bound first (separated first ',' (memberChars members) ++ '\x7d' :: rest) =
      .ok (members, rest)
  | _, _, _, _, 0, _, enough => absurd enough (Nat.not_lt_zero _)
  | [], _, _, first, bound + 1, rest, _ => by cases first <;> rfl
  | (key, value) :: members, canonical, legible, first, bound + 1, rest, enough => by
    simp only [memberChars, separated, List.length_append, List.length_cons] at enough
    rw [memberChars, separated, List.append_assoc, List.append_assoc, List.append_assoc,
      ← List.append_assoc _ (jsonQuoted key), List.cons_append]
    exact readMembers_succ (nextMember_jsonQuoted key _) (readString_flatMap key _)
      (readColon_colon _)
      (readValue_chars value canonical.1 legible.1 bound _
        (endsNumber_separated rfl (Number.endsNumber_cons rfl rest) _) (by omega))
      (readMembers_separated members canonical.2 legible.2 false bound rest (by omega))

end

/-- The text of a document is read as the document, and nothing is left of the text. -/
theorem read_text {document : Json} (canonical : document.Canonical) (legible : document.Legible) :
    read document.text = .ok document := by
  have whole := readValue_chars document canonical legible (2 * document.chars.length + 1) []
    Number.endsNumber_nil (by omega)
  rw [List.append_nil] at whole
  rw [read, text, String.toList_ofList, readChars, whole]
  rfl

/-- A document is legible if the floats in it are; whole numbers always are. -/
theorem legible_integer (n : WordInteger) : (Json.number (.integer n)).Legible :=
  Number.read_integerText n

end Json

end Redaction

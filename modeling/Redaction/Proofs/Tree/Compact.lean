import Redaction.Proofs.Json.RoundTrip
import Redaction.Proofs.Number.Written
import Redaction.Proofs.Text.Visible
import Redaction.Tree.Rendering

/-!
# Telling compact forms apart

The first character of a compact form tells what kind of tree it renders. A list or an object ends
at its own bracket, a key at the colon or at its closing quote, and a number where nothing follows
that could continue it. The marker stands bare, and so it has to begin with a character that begins
nothing else and that does not close a list either: `[]` could be a list with the marker `]`.
-/

namespace Redaction.Tree

open Number (EndsNumber)
open Text (joined_eq_separated separated visiblyQuoted visiblyQuoted_append_inj append_cons_inj)

/-- Whether a character may begin the compact form of something that was not taken out. -/
def beginsValue (c : Char) : Bool :=
  c == 'n' || c == 't' || c == 'f' || c.isDigit || c == '-' || c == '"' || c == '[' || c == '<'

/-- Whether a marker begins with a character that begins no other compact form and closes no
list. -/
def standsOut (marker : String) : Bool :=
  marker.toList.head?.any fun c => !beginsValue c && c != ']'

/-- The character with which a compact form begins, if there is only one. -/
def opening (marker : String) : Tree → Option Char
  | .null => some 'n'
  | .bool value => some (if value then 't' else 'f')
  | .number _ => none
  | .string _ => some '"'
  | .stripped => marker.toList.head?
  | .list _ => some '['
  | .object _ => some '<'

variable {marker : String}

/-- The first character of a marker that stands out. -/
theorem exists_cons_of_standsOut (marked : standsOut marker = true) :
    ∃ c later, marker.toList = c :: later ∧ beginsValue c = false ∧ c ≠ ']' := by
  unfold standsOut at marked
  cases text : marker.toList with
  | nil =>
    rw [text] at marked
    cases marked
  | cons c later =>
    rw [text, List.head?_cons, Option.any_some, Bool.and_eq_true, Bool.not_eq_true', bne_iff_ne]
      at marked
    exact ⟨c, later, rfl, marked⟩

/-- A number begins no other compact form. -/
theorem beginsValue_of_number {c : Char} (begins : c = '-' ∨ c.isDigit = true) :
    beginsValue c = true := by
  unfold beginsValue
  rcases begins with rfl | digit
  · rfl
  · simp only [digit, Bool.or_true, Bool.true_or]

/-- The opening is told by the first character, which closes no list. -/
theorem exists_cons_compactChars (marked : standsOut marker = true) (tree : Tree) :
    ∃ c later, tree.compactChars marker = c :: later ∧ c ≠ ']' ∧
      tree.opening marker = if c = '-' ∨ c.isDigit = true then none else some c := by
  cases tree with
  | null => exact ⟨'n', _, rfl, by decide, rfl⟩
  | bool value =>
    cases value with
    | false => exact ⟨'f', _, rfl, by decide, rfl⟩
    | true => exact ⟨'t', _, rfl, by decide, rfl⟩
  | string value => exact ⟨_, _, rfl, by decide, rfl⟩
  | list items => exact ⟨_, _, rfl, by decide, rfl⟩
  | object members => exact ⟨_, _, rfl, by decide, rfl⟩
  | number value =>
    obtain ⟨c, later, text, begins⟩ := Number.exists_cons_text value
    refine ⟨c, later, text, ?_, (if_pos begins).symm⟩
    rintro rfl
    exact absurd begins (by decide)
  | stripped =>
    obtain ⟨c, later, text, other, noBracket⟩ := exists_cons_of_standsOut marked
    have noNumber : ¬ (c = '-' ∨ c.isDigit = true) := fun begins =>
      Bool.false_ne_true (other.symm.trans (beginsValue_of_number begins))
    refine ⟨c, later, text, noBracket, ?_⟩
    rw [opening, text, if_neg noNumber, List.head?_cons]

/-- Compact forms that begin alike have the same opening. -/
theorem opening_eq_of_append {tree other : Tree} {rest left : List Char}
    (marked : standsOut marker = true)
    (same : tree.compactChars marker ++ rest = other.compactChars marker ++ left) :
    tree.opening marker = other.opening marker := by
  obtain ⟨c, later, text, _, opens⟩ := exists_cons_compactChars marked tree
  obtain ⟨d, others, textOther, _, opensOther⟩ := exists_cons_compactChars marked other
  rw [text, textOther] at same
  rw [opens, opensOther, (List.cons.inj same).1]

/-- Nothing but the marker opens like the marker. -/
theorem eq_stripped_of_opening (marked : standsOut marker = true) {tree : Tree}
    (opens : tree.opening marker = Tree.stripped.opening marker) : tree = .stripped := by
  obtain ⟨c, later, text, other, _⟩ := exists_cons_of_standsOut marked
  have never (d : Char) (begins : beginsValue d = true) (same : some d = some c) : False := by
    rw [Option.some.inj same, other] at begins
    cases begins
  have head : Tree.stripped.opening marker = some c := by rw [opening, text, List.head?_cons]
  rw [head] at opens
  cases tree with
  | stripped => rfl
  | number value => cases opens
  | null => exact (never 'n' rfl opens).elim
  | bool value => cases value <;> exact (never _ rfl opens).elim
  | string value => exact (never '"' rfl opens).elim
  | list items => exact (never '[' rfl opens).elim
  | object members => exact (never '<' rfl opens).elim

section Keys

/-- There is no colon in a plain name. -/
theorem colon_not_mem_of_isPlainName {key : String} (plain : isPlainName key = true) :
    ':' ∉ key.toList := by
  unfold isPlainName at plain
  cases text : key.toList with
  | nil => exact List.not_mem_nil
  | cons first rest =>
    rw [text] at plain
    simp only [Bool.and_eq_true, List.all_eq_true] at plain
    intro present
    rcases List.mem_cons.mp present with here | later
    · rw [← here] at plain
      exact absurd plain.1 (by decide)
    · exact absurd (plain.2 ':' later) (by decide)

/-- A plain name begins with a letter. -/
theorem exists_cons_of_isPlainName {key : String} (plain : isPlainName key = true) :
    ∃ c later, key.toList = c :: later ∧ c.isAlpha = true := by
  unfold isPlainName at plain
  cases text : key.toList with
  | nil =>
    rw [text] at plain
    cases plain
  | cons first rest =>
    rw [text] at plain
    exact ⟨first, rest, rfl, (Bool.and_eq_true_iff.mp plain).1⟩

/-- The first character of a key closes no object. -/
theorem exists_cons_compactKey (key : String) :
    ∃ c later, compactKey key = c :: later ∧ c ≠ '>' := by
  cases plain : isPlainName key with
  | true =>
    obtain ⟨c, later, text, letter⟩ := exists_cons_of_isPlainName plain
    refine ⟨c, later, by rw [compactKey, if_pos plain, text], ?_⟩
    rintro rfl
    cases letter
  | false => exact ⟨'"', _, by rw [compactKey, plain, if_neg Bool.false_ne_true]; rfl, by decide⟩

/-- A plain name is told from a quoted key by its first character. -/
theorem plain_append_ne_quoted {key other : String} (plain : isPlainName key = true)
    (rest left : List Char) : key.toList ++ rest ≠ visiblyQuoted other ++ left := by
  obtain ⟨c, later, text, letter⟩ := exists_cons_of_isPlainName plain
  intro same
  rw [text] at same
  have quote : c = '"' := (List.cons.inj same).1
  rw [quote] at letter
  cases letter

/-- A key is told by what begins with it and a colon, and so is its end. -/
theorem compactKey_append_inj {key other : String} {rest left : List Char}
    (same : compactKey key ++ ':' :: rest = compactKey other ++ ':' :: left) :
    key = other ∧ rest = left := by
  unfold compactKey at same
  split at same
  · next plain =>
    split at same
    · next plainOther =>
      obtain ⟨chars, tails⟩ := append_cons_inj (colon_not_mem_of_isPlainName plain)
        (colon_not_mem_of_isPlainName plainOther) same
      exact ⟨String.toList_inj.mp chars, tails⟩
    · exact absurd same (plain_append_ne_quoted plain _ _)
  · split at same
    · next plainOther => exact absurd same.symm (plain_append_ne_quoted plainOther _ _)
    · obtain ⟨keys, tails⟩ := visiblyQuoted_append_inj same
      exact ⟨keys, (List.cons.inj tails).2⟩

end Keys

/-- Where an element follows, no list and no object is closed. -/
theorem separated_append_ne {first : Bool} {c closing : Char} {later rest left : List Char}
    {texts : List (List Char)} (other : c ≠ closing) (space : ' ' ≠ closing) :
    separated first ' ' ((c :: later) :: texts) ++ rest ≠ closing :: left := by
  cases first with
  | true => exact fun same => other (List.cons.inj same).1
  | false => exact fun same => space (List.cons.inj same).1

/-- Where an item follows, no list is closed. -/
theorem items_append_ne (marked : standsOut marker = true) (first : Bool) (item : Tree)
    (items : List Tree) (rest left : List Char) :
    separated first ' ' (compactItems marker (item :: items)) ++ rest ≠ ']' :: left := by
  obtain ⟨c, later, text, other, _⟩ := exists_cons_compactChars marked item
  rw [compactItems, text]
  exact separated_append_ne other (by decide)

/-- Where a member follows, no object is closed. -/
theorem members_append_ne (first : Bool) (member : String × Tree)
    (members : List (String × Tree)) (rest left : List Char) :
    separated first ' ' (compactMembers marker (member :: members)) ++ rest ≠ '>' :: left := by
  obtain ⟨c, later, text, other⟩ := exists_cons_compactKey member.1
  rw [compactMembers, text, List.cons_append]
  exact separated_append_ne other (by decide)

/-- A number ends behind an element: a blank or the closing bracket follows. -/
theorem endsNumber_elements {closing : Char} (stops : Number.continuesNumber closing = false)
    (texts : List (List Char)) (rest : List Char) :
    EndsNumber (separated false ' ' texts ++ closing :: rest) :=
  Json.endsNumber_separated rfl (Number.endsNumber_cons stops rest) texts

mutual

/-- Where numbers end, a compact form tells its tree and where it ends itself. -/
theorem compactChars_append_inj (marked : standsOut marker = true) {rest left : List Char} :
    (tree other : Tree) → EndsNumber rest → EndsNumber left →
    tree.compactChars marker ++ rest = other.compactChars marker ++ left →
    tree = other ∧ rest = left
  | .stripped, other, _, _, same => by
    obtain rfl := eq_stripped_of_opening marked (opening_eq_of_append marked same).symm
    exact ⟨rfl, List.append_cancel_left same⟩
  | .null, other, _, _, same => by
    have opens := opening_eq_of_append marked same
    cases other with
    | null => exact ⟨rfl, List.append_cancel_left same⟩
    | stripped => cases eq_stripped_of_opening marked opens
    | _ => exact absurd opens (by grind [opening])
  | .bool value, other, _, _, same => by
    have opens := opening_eq_of_append marked same
    cases other with
    | bool valueOther =>
      obtain rfl : value = valueOther := by
        cases value <;> cases valueOther <;> first | rfl | exact absurd opens (by grind [opening])
      exact ⟨rfl, List.append_cancel_left same⟩
    | stripped => cases eq_stripped_of_opening marked opens
    | _ => exact absurd opens (by grind [opening])
  | .number value, other, ends, endsOther, same => by
    have opens := opening_eq_of_append marked same
    cases other with
    | number valueOther =>
      obtain ⟨rfl, tails⟩ := Number.text_append_inj ends endsOther same
      exact ⟨rfl, tails⟩
    | stripped => cases eq_stripped_of_opening marked opens
    | _ => exact absurd opens (by grind [opening])
  | .string value, other, _, _, same => by
    have opens := opening_eq_of_append marked same
    cases other with
    | string valueOther =>
      obtain ⟨rfl, tails⟩ := visiblyQuoted_append_inj same
      exact ⟨rfl, tails⟩
    | stripped => cases eq_stripped_of_opening marked opens
    | _ => exact absurd opens (by grind [opening])
  | .list items, other, _, _, same => by
    have opens := opening_eq_of_append marked same
    cases other with
    | list itemsOther =>
      simp only [compactChars, joined_eq_separated, List.cons_append, List.append_assoc,
        List.nil_append, List.cons.injEq, true_and] at same
      obtain ⟨rfl, tails⟩ := compactItems_append_inj marked true items itemsOther same
      exact ⟨rfl, tails⟩
    | stripped => cases eq_stripped_of_opening marked opens
    | _ => exact absurd opens (by grind [opening])
  | .object members, other, _, _, same => by
    have opens := opening_eq_of_append marked same
    cases other with
    | object membersOther =>
      simp only [compactChars, joined_eq_separated, List.cons_append, List.append_assoc,
        List.nil_append, List.cons.injEq, true_and] at same
      obtain ⟨rfl, tails⟩ := compactMembers_append_inj marked true members membersOther same
      exact ⟨rfl, tails⟩
    | stripped => cases eq_stripped_of_opening marked opens
    | _ => exact absurd opens (by grind [opening])

/-- The items up to the bracket are told by their compact forms. -/
theorem compactItems_append_inj (marked : standsOut marker = true) {rest left : List Char}
    (first : Bool) : (items others : List Tree) →
    separated first ' ' (compactItems marker items) ++ ']' :: rest =
      separated first ' ' (compactItems marker others) ++ ']' :: left →
    items = others ∧ rest = left
  | [], [], same => ⟨rfl, (List.cons.inj same).2⟩
  | [], other :: others, same => absurd same.symm (items_append_ne marked first other others _ _)
  | item :: items, [], same => absurd same (items_append_ne marked first item items _ _)
  | item :: items, other :: others, same => by
    simp only [compactItems, separated, List.append_assoc, List.append_cancel_left_eq] at same
    obtain ⟨rfl, tails⟩ := compactChars_append_inj marked item other
      (endsNumber_elements rfl _ _) (endsNumber_elements rfl _ _) same
    obtain ⟨rfl, behind⟩ := compactItems_append_inj marked false items others tails
    exact ⟨rfl, behind⟩

/-- The members up to the bracket are told by their compact forms. -/
theorem compactMembers_append_inj (marked : standsOut marker = true) {rest left : List Char}
    (first : Bool) : (members others : List (String × Tree)) →
    separated first ' ' (compactMembers marker members) ++ '>' :: rest =
      separated first ' ' (compactMembers marker others) ++ '>' :: left →
    members = others ∧ rest = left
  | [], [], same => ⟨rfl, (List.cons.inj same).2⟩
  | [], other :: others, same => absurd same.symm (members_append_ne first other others _ _)
  | member :: members, [], same => absurd same (members_append_ne first member members _ _)
  | (key, value) :: members, (keyOther, valueOther) :: others, same => by
    simp only [compactMembers, separated, List.append_assoc, List.cons_append,
      List.append_cancel_left_eq] at same
    obtain ⟨rfl, values⟩ := compactKey_append_inj same
    obtain ⟨rfl, tails⟩ := compactChars_append_inj marked value valueOther
      (endsNumber_elements rfl _ _) (endsNumber_elements rfl _ _) values
    obtain ⟨rfl, behind⟩ := compactMembers_append_inj marked false members others tails
    exact ⟨rfl, behind⟩

end

/-- No two trees have the same compact rendering, if the marker stands out. -/
theorem render_compact_injective (marked : standsOut marker = true) :
    Function.Injective (render .compact marker) := by
  intro tree other same
  have texts : tree.compactChars marker = other.compactChars marker :=
    String.ofList_injective same
  have whole : tree.compactChars marker ++ [] = other.compactChars marker ++ [] := by rw [texts]
  exact (compactChars_append_inj marked tree other Number.endsNumber_nil Number.endsNumber_nil
    whole).1

/-- A text that reads like the usual marker is not rendered like something that was taken out. -/
theorem render_compact_stripped_ne :
    standsOut "***stripped***" = true ∧
      (list [stripped]).render .compact "***stripped***" ≠
        (list [string "***stripped***"]).render .compact "***stripped***" :=
  ⟨by decide, (render_compact_injective (by decide)).ne (by decide)⟩

/-- A marker that closes a list is mistaken for its end, though it begins no compact form. -/
theorem render_compact_not_injective_of_bracket :
    ¬ ∀ marker : String, (marker.toList.head?.any fun c => !beginsValue c) = true →
      Function.Injective (render .compact marker) := by
  intro claimed
  have injective : Function.Injective (render .compact "]") := claimed "]" (by decide)
  have same : (list [list [], list [stripped]]).render .compact "]" =
      (list [list [stripped, list []]]).render .compact "]" := by rfl
  have equal : list [list [], list [stripped]] = list [list [stripped, list []]] := injective same
  exact absurd equal (by decide)

end Redaction.Tree

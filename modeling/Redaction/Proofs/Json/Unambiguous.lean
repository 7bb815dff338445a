import Redaction.Proofs.Json.Grammar

/-!
# The grammar is unambiguous

A text spells at most one document. The first character tells which kind of document it is, a number
ends where no more of it can follow, and a list or an object goes on as the reader of its next
element says. The compact text of a document is one of those that spell it.
-/

namespace Redaction.Json

open Number (EndsNumber)

/-- The character with which every text of the document begins, if there is only one. -/
def opening : Json → Option Char
  | .null => some 'n'
  | .bool value => some (if value then 't' else 'f')
  | .number _ => none
  | .string _ => some '"'
  | .array _ => some '['
  | .object _ => some '\x7b'

/-- The opening is told by the first character. -/
theorem Spelled.exists_cons {document : Json} {text : List Char} (spelled : document.Spelled text) :
    ∃ c later, text = c :: later ∧ isBlank c = false ∧ c ≠ ']' ∧
      document.opening = if c = '-' ∨ c.isDigit = true then none else some c := by
  cases document with
  | null =>
    obtain rfl : text = "null".toList := spelled
    exact ⟨_, _, rfl, by decide⟩
  | bool value =>
    obtain rfl : text = boolText value := spelled
    cases value <;> exact ⟨_, _, rfl, by decide⟩
  | string value =>
    obtain ⟨_, _, rfl⟩ := spelled
    exact ⟨_, _, rfl, by decide, by decide, rfl⟩
  | array items =>
    obtain ⟨_, _, rfl⟩ := spelled
    exact ⟨_, _, rfl, by decide, by decide, rfl⟩
  | object members =>
    obtain ⟨_, _, rfl⟩ := spelled
    exact ⟨_, _, rfl, by decide, by decide, rfl⟩
  | number value =>
    obtain ⟨c, later, rfl, begins⟩ := Number.exists_cons_of_read spelled
    refine ⟨c, later, rfl, ?_, ?_, (if_pos begins).symm⟩
    · rcases begins with rfl | digit
      · rfl
      · exact isBlank_of_isDigit digit
    · rintro rfl
      exact absurd begins (by decide)

/-- Documents whose texts begin alike have the same opening. -/
theorem opening_eq {document other : Json} {here there rest left : List Char}
    (spelled : document.Spelled here) (spelledOther : other.Spelled there)
    (same : here ++ rest = there ++ left) : document.opening = other.opening := by
  obtain ⟨c, later, rfl, _, _, opens⟩ := spelled.exists_cons
  obtain ⟨d, others, rfl, _, _, opensOther⟩ := spelledOther.exists_cons
  obtain rfl : c = d := (List.cons.inj same).1
  rw [opens, opensOther]

/-- A number ends behind an item: a blank, a comma or the end of the list follows. -/
theorem SpelledItems.endsNumber {items : List Json} {text : List Char}
    (spelled : SpelledItems false items text) (rest : List Char) :
    EndsNumber (text ++ ']' :: rest) := by
  cases items with
  | nil => exact endsNumber_blank spelled (Number.endsNumber_cons rfl rest)
  | cons item items =>
    obtain ⟨_, here, later, ⟨before, after, blankBefore, _, rfl⟩, _, _, rfl⟩ := spelled
    simp only [List.append_assoc, List.cons_append]
    exact endsNumber_blank blankBefore (Number.endsNumber_cons rfl _)

/-- A number ends behind a member: a blank, a comma or the end of the object follows. -/
theorem SpelledMembers.endsNumber {members : List (String × Json)} {text : List Char}
    (spelled : SpelledMembers false members text) (rest : List Char) :
    EndsNumber (text ++ '\x7d' :: rest) := by
  cases members with
  | nil => exact endsNumber_blank spelled (Number.endsNumber_cons rfl rest)
  | cons member members =>
    obtain ⟨_, name, colon, here, later, ⟨before, after, blankBefore, _, rfl⟩, _, _, _, _, rfl⟩ :=
      spelled
    simp only [List.append_assoc, List.cons_append]
    exact endsNumber_blank blankBefore (Number.endsNumber_cons rfl _)

/-- The readers find the next item of a spelled list. -/
theorem SpelledItems.next {first : Bool} {items : List Json} {text : List Char}
    (spelled : SpelledItems first items text) (rest : List Char) :
    match items with
    | [] => nextItem first (text ++ ']' :: rest) = .ok (.done rest)
    | item :: items => ∃ here later, item.Spelled here ∧ SpelledItems false items later ∧
        nextItem first (text ++ ']' :: rest) = .ok (.item (here ++ (later ++ ']' :: rest))) := by
  cases items with
  | nil => exact nextItem_eq_done_iff.mpr ⟨text, [']'], spelled, rfl, by simp⟩
  | cons item items =>
    obtain ⟨lead, here, later, leads, spelledHere, spelledLater, rfl⟩ := spelled
    obtain ⟨c, others, rfl, solid, noBracket, _⟩ := spelledHere.exists_cons
    refine ⟨_, later, spelledHere, spelledLater, ?_⟩
    simp only [List.append_assoc, List.cons_append]
    exact nextItem_of_lead leads solid noBracket

/-- The readers find the next member of a spelled object. -/
theorem SpelledMembers.next {first : Bool} {members : List (String × Json)} {text : List Char}
    (spelled : SpelledMembers first members text) (rest : List Char) :
    match members with
    | [] => nextMember first (text ++ '\x7d' :: rest) = .ok (.done rest)
    | (key, value) :: members => ∃ behindQuote behindKey before here later, Blank before ∧
        value.Spelled here ∧ SpelledMembers false members later ∧
        nextMember first (text ++ '\x7d' :: rest) = .ok (.key behindQuote) ∧
        readString behindQuote = .ok (key, behindKey) ∧
        readColon behindKey = .ok (before ++ (here ++ (later ++ '\x7d' :: rest))) := by
  cases members with
  | nil => exact nextMember_eq_done_iff.mpr ⟨text, ['\x7d'], spelled, rfl, by simp⟩
  | cons member members =>
    obtain ⟨lead, name, colon, here, later, leads, ⟨inside, quoted, rfl⟩,
      ⟨blanks, before, blank, blankBefore, rfl⟩, spelledHere, spelledLater, rfl⟩ := spelled
    refine ⟨_, _, before, here, later, blankBefore, spelledHere, spelledLater,
      nextMember_eq_key_iff.mpr ⟨lead, leads, ?_⟩, readString_eq_ok_iff.mpr ⟨inside, quoted, rfl⟩,
      readColon_eq_ok_iff.mpr ⟨blanks, [':'], blank, rfl, rfl⟩⟩
    simp only [List.append_assoc, List.cons_append, List.nil_append]

/-- Blanks in front of a document are told apart from it. -/
theorem Spelled.skipBlanks {document : Json} {blanks here : List Char}
    (spelled : document.Spelled here) (blank : Blank blanks) (rest : List Char) :
    skipBlanks (blanks ++ (here ++ rest)) = here ++ rest := by
  obtain ⟨c, later, rfl, solid, _⟩ := spelled.exists_cons
  rw [skipBlanks_append blank, List.cons_append, skipBlanks_of_not solid]

mutual

/-- Where a number would end, a text spells one document and one only. -/
theorem spelled_inj {here there rest left : List Char} : (document other : Json) →
    document.Spelled here → other.Spelled there → EndsNumber rest → EndsNumber left →
    here ++ rest = there ++ left → document = other ∧ rest = left
  | .null, other, spelled, spelledOther, _, _, same => by
    have opens := opening_eq spelled spelledOther same
    cases other with
    | null =>
      obtain rfl : here = there := spelled.trans spelledOther.symm
      exact ⟨rfl, List.append_cancel_left same⟩
    | _ => exact absurd opens (by grind [opening])
  | .bool value, other, spelled, spelledOther, _, _, same => by
    have opens := opening_eq spelled spelledOther same
    cases other with
    | bool valueOther =>
      obtain rfl : value = valueOther := by
        cases value <;> cases valueOther <;> first | rfl | exact absurd opens (by decide)
      obtain rfl : here = there := spelled.trans spelledOther.symm
      exact ⟨rfl, List.append_cancel_left same⟩
    | _ => exact absurd opens (by grind [opening])
  | .number value, other, spelled, spelledOther, ends, endsOther, same => by
    have opens := opening_eq spelled spelledOther same
    cases other with
    | number valueOther =>
      have read := Number.local_read here value [] rest ends spelled
      have readOther := Number.local_read there valueOther [] left endsOther spelledOther
      rw [same, readOther] at read
      cases read
      exact ⟨rfl, rfl⟩
    | _ => exact absurd opens (by grind [opening])
  | .string value, other, spelled, spelledOther, _, _, same => by
    have opens := opening_eq spelled spelledOther same
    cases other with
    | string valueOther =>
      obtain ⟨inside, quoted, rfl⟩ := spelled
      obtain ⟨insideOther, quotedOther, rfl⟩ := spelledOther
      simp only [List.cons_append, List.append_assoc, List.nil_append, List.cons.injEq, true_and]
        at same
      have read := readString_eq_ok_iff.mpr ⟨inside, quoted, same.symm⟩
      have readOther : readString (insideOther ++ '"' :: left) = .ok (valueOther, left) :=
        readString_eq_ok_iff.mpr ⟨insideOther, quotedOther, rfl⟩
      rw [readOther] at read
      cases read
      exact ⟨rfl, rfl⟩
    | _ => exact absurd opens (by grind [opening])
  | .array items, other, spelled, spelledOther, _, _, same => by
    have opens := opening_eq spelled spelledOther same
    cases other with
    | array itemsOther =>
      obtain ⟨inside, spelled, rfl⟩ := spelled
      obtain ⟨insideOther, spelledOther, rfl⟩ := spelledOther
      simp only [List.cons_append, List.append_assoc, List.nil_append, List.cons.injEq, true_and]
        at same
      obtain ⟨rfl, rfl⟩ := spelledItems_inj items itemsOther spelled spelledOther same
      exact ⟨rfl, rfl⟩
    | _ => exact absurd opens (by grind [opening])
  | .object members, other, spelled, spelledOther, _, _, same => by
    have opens := opening_eq spelled spelledOther same
    cases other with
    | object membersOther =>
      obtain ⟨inside, spelled, rfl⟩ := spelled
      obtain ⟨insideOther, spelledOther, rfl⟩ := spelledOther
      simp only [List.cons_append, List.append_assoc, List.nil_append, List.cons.injEq, true_and]
        at same
      obtain ⟨rfl, rfl⟩ := spelledMembers_inj members membersOther spelled spelledOther same
      exact ⟨rfl, rfl⟩
    | _ => exact absurd opens (by grind [opening])

/-- The items up to the bracket are told by the text. -/
theorem spelledItems_inj {first : Bool} {here there rest left : List Char} :
    (items others : List Json) → SpelledItems first items here → SpelledItems first others there →
    here ++ ']' :: rest = there ++ ']' :: left → items = others ∧ rest = left
  | [], [], spelled, spelledOther, same => by
    have next := spelled.next rest
    have nextOther := spelledOther.next left
    dsimp only at next nextOther
    rw [same, nextOther] at next
    cases next
    exact ⟨rfl, rfl⟩
  | [], _ :: _, spelled, spelledOther, same => by
    have next := spelled.next rest
    obtain ⟨_, _, _, _, nextOther⟩ := spelledOther.next left
    dsimp only at next
    rw [same, nextOther] at next
    cases next
  | _ :: _, [], spelled, spelledOther, same => by
    obtain ⟨_, _, _, _, next⟩ := spelled.next rest
    have nextOther := spelledOther.next left
    dsimp only at nextOther
    rw [same, nextOther] at next
    cases next
  | item :: items, other :: others, spelled, spelledOther, same => by
    obtain ⟨here, later, spelledHere, spelledLater, next⟩ := spelled.next rest
    obtain ⟨there, after, spelledThere, spelledAfter, nextOther⟩ := spelledOther.next left
    rw [same, nextOther] at next
    have again : here ++ (later ++ ']' :: rest) = there ++ (after ++ ']' :: left) :=
      (NextItem.item.inj (Except.ok.inj next)).symm
    obtain ⟨rfl, tails⟩ := spelled_inj item other spelledHere spelledThere
      (spelledLater.endsNumber rest) (spelledAfter.endsNumber left) again
    obtain ⟨rfl, rfl⟩ := spelledItems_inj items others spelledLater spelledAfter tails
    exact ⟨rfl, rfl⟩

/-- The members up to the brace are told by the text. -/
theorem spelledMembers_inj {first : Bool} {here there rest left : List Char} :
    (members others : List (String × Json)) → SpelledMembers first members here →
    SpelledMembers first others there → here ++ '\x7d' :: rest = there ++ '\x7d' :: left →
    members = others ∧ rest = left
  | [], [], spelled, spelledOther, same => by
    have next := spelled.next rest
    have nextOther := spelledOther.next left
    dsimp only at next nextOther
    rw [same, nextOther] at next
    cases next
    exact ⟨rfl, rfl⟩
  | [], (_, _) :: _, spelled, spelledOther, same => by
    have next := spelled.next rest
    obtain ⟨_, _, _, _, _, _, _, _, nextOther, _⟩ := spelledOther.next left
    dsimp only at next
    rw [same, nextOther] at next
    cases next
  | (_, _) :: _, [], spelled, spelledOther, same => by
    obtain ⟨_, _, _, _, _, _, _, _, next, _⟩ := spelled.next rest
    have nextOther := spelledOther.next left
    dsimp only at nextOther
    rw [same, nextOther] at next
    cases next
  | (key, value) :: members, (keyOther, valueOther) :: others, spelled, spelledOther, same => by
    obtain ⟨behindQuote, behindKey, before, here, later, blank, spelledHere, spelledLater, next,
      name, colon⟩ := spelled.next rest
    obtain ⟨_, _, beforeOther, there, after, blankOther, spelledThere, spelledAfter, nextOther,
      nameOther, colonOther⟩ := spelledOther.next left
    rw [same, nextOther] at next
    cases next
    rw [nameOther] at name
    cases name
    rw [colonOther] at colon
    have again : here ++ (later ++ '\x7d' :: rest) = there ++ (after ++ '\x7d' :: left) := by
      rw [← spelledHere.skipBlanks blank, ← spelledThere.skipBlanks blankOther,
        Except.ok.inj colon]
    obtain ⟨rfl, tails⟩ := spelled_inj value valueOther spelledHere spelledThere
      (spelledLater.endsNumber rest) (spelledAfter.endsNumber left) again
    obtain ⟨rfl, rfl⟩ := spelledMembers_inj members others spelledLater spelledAfter tails
    exact ⟨rfl, rfl⟩

end

/-- A text spells one document at most. -/
theorem SpelledText.unique {document other : Json} {text : List Char}
    (spelled : document.SpelledText text) (spelledOther : other.SpelledText text) :
    document = other := by
  obtain ⟨before, here, after, blankBefore, spelledHere, blankAfter, whole⟩ := spelled
  obtain ⟨start, there, left, blankStart, spelledThere, blankLeft, wholeOther⟩ := spelledOther
  have same : here ++ after = there ++ left := by
    rw [← spelledHere.skipBlanks blankBefore, ← spelledThere.skipBlanks blankStart,
      ← List.append_assoc, ← List.append_assoc, ← whole, ← wholeOther]
  have ends {blanks : List Char} (blank : Blank blanks) : EndsNumber blanks := by
    rw [← List.append_nil blanks]
    exact endsNumber_blank blank Number.endsNumber_nil
  exact (spelled_inj document other spelledHere spelledThere (ends blankAfter) (ends blankLeft)
    same).1

/-! ## The compact text -/

/-- The quoted form of a text spells it. -/
theorem spellsString_jsonQuoted (value : String) : SpellsString value (Text.jsonQuoted value) := by
  obtain ⟨inside, spelled, whole⟩ := readString_eq_ok_iff.mp (readString_flatMap value [])
  obtain rfl := List.append_cancel_right whole
  exact ⟨_, spelled, rfl⟩

/-- Nothing or a comma leads to an element. -/
theorem lead_comma (first : Bool) : Lead first (if first then [] else [',']) := by
  cases first with
  | true => exact blank_nil
  | false => exact ⟨[], [], blank_nil, blank_nil, rfl⟩

mutual

/-- The compact text of a legible document spells it. -/
theorem spelled_chars : (document : Json) → document.Legible → document.Spelled document.chars
  | .null, _ => rfl
  | .bool _, _ => rfl
  | .number _, legible => legible
  | .string value, _ => spellsString_jsonQuoted value
  | .array items, legible =>
    ⟨_, spelledItems_separated items legible true, by rw [chars, Text.joined_eq_separated]⟩
  | .object members, legible =>
    ⟨_, spelledMembers_separated members legible true, by rw [chars, Text.joined_eq_separated]⟩

/-- The separated texts of legible items spell them. -/
theorem spelledItems_separated : (items : List Json) → LegibleItems items → (first : Bool) →
    SpelledItems first items (Text.separated first ',' (itemChars items))
  | [], _, _ => blank_nil
  | item :: items, legible, first =>
    ⟨_, _, _, lead_comma first, spelled_chars item legible.1,
      spelledItems_separated items legible.2 false, rfl⟩

/-- The separated texts of legible members spell them. -/
theorem spelledMembers_separated : (members : List (String × Json)) → LegibleMembers members →
    (first : Bool) → SpelledMembers first members (Text.separated first ',' (memberChars members))
  | [], _, _ => blank_nil
  | (key, value) :: members, legible, first =>
    ⟨_, _, [':'], _, _, lead_comma first, spellsString_jsonQuoted key,
      ⟨[], [], blank_nil, blank_nil, rfl⟩, spelled_chars value legible.1,
      spelledMembers_separated members legible.2 false, by
        simp only [memberChars, Text.separated, List.append_assoc, List.singleton_append]⟩

end

/-- The compact text of a legible document spells it, without blanks around it. -/
theorem spelledText_text {document : Json} (legible : document.Legible) :
    document.SpelledText document.text.toList := by
  refine ⟨[], document.chars, [], blank_nil, spelled_chars document legible, blank_nil, ?_⟩
  rw [text, String.toList_ofList, List.append_nil, List.nil_append]

end Redaction.Json

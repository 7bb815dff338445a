import Redaction.Proofs.Json.RoundTrip
import Redaction.Proofs.Text.Plain
import Redaction.Tree.Rendering

/-!
# Renderings stay on one line

Brackets, separators, numbers and plain names are written with printed ASCII characters, and all
other texts are quoted. So no character of a JSON form is below the blank, and the compact form is a
template filled with the marker: what the data contributes could not end a line.
-/

namespace Redaction

namespace Number

open Text (isPlain isPlain_of_isDigit)

/-- The digits of a natural number are plain. -/
theorem isPlain_naturalText (n : Nat) : ∀ c ∈ naturalText n, isPlain c = true :=
  fun c present => isPlain_of_isDigit (isDigit_naturalText n c present)

/-- A whole number is written with plain characters. -/
theorem isPlain_integerText (n : Int) : ∀ c ∈ integerText n, isPlain c = true := by
  unfold integerText
  split
  · exact List.forall_mem_cons.mpr ⟨rfl, isPlain_naturalText _⟩
  · exact isPlain_naturalText _

namespace Decimal

/-- Zeros are plain. -/
theorem isPlain_zeros (count : Nat) : ∀ c ∈ List.replicate count '0', isPlain c = true := by
  intro c present
  rw [List.eq_of_mem_replicate present]
  rfl

/-- A decimal written in full has plain characters. -/
theorem isPlain_positionalText (decimal : Decimal) :
    ∀ c ∈ decimal.positionalText, isPlain c = true := by
  have digits := isPlain_naturalText decimal.digits
  unfold positionalText
  dsimp only
  split
  · simp only [List.forall_mem_cons, List.forall_mem_append]
    exact ⟨rfl, rfl, isPlain_zeros _, digits⟩
  split
  · simp only [List.forall_mem_cons, List.forall_mem_append]
    exact ⟨⟨digits, isPlain_zeros _⟩, rfl, rfl, List.forall_mem_nil _⟩
  · simp only [List.forall_mem_cons, List.forall_mem_append]
    exact ⟨fun c present => digits c (List.mem_of_mem_take present), rfl,
      fun c present => digits c (List.mem_of_mem_drop present)⟩

/-- A decimal in exponent form has plain characters. -/
theorem isPlain_exponentText (decimal : Decimal) :
    ∀ c ∈ decimal.exponentText, isPlain c = true := by
  have digits := isPlain_naturalText decimal.digits
  unfold exponentText
  dsimp only
  rw [List.forall_mem_append, List.forall_mem_cons, List.forall_mem_cons]
  refine ⟨?_, rfl, ?_, isPlain_naturalText _⟩
  · split
    · next text =>
      rw [text] at digits
      obtain ⟨first, rest⟩ := List.forall_mem_cons.mp digits
      exact List.forall_mem_cons.mpr ⟨first, List.forall_mem_cons.mpr ⟨rfl, rest⟩⟩
    · exact digits
  · split <;> rfl

/-- A decimal has plain characters in every layout. -/
theorem isPlain_text (layout : DecimalLayout) (decimal : Decimal) :
    ∀ c ∈ decimal.text layout, isPlain c = true := by
  unfold text
  split
  · exact isPlain_positionalText decimal
  · exact isPlain_exponentText decimal

end Decimal

/-- A number is written with plain characters. -/
theorem isPlain_text (number : Number) : ∀ c ∈ number.text, isPlain c = true := by
  cases number with
  | integer n => exact isPlain_integerText n.value
  | float x =>
    rw [text, Binary.text]
    split
    · exact List.forall_mem_cons.mpr ⟨rfl, Decimal.isPlain_text _ _⟩
    · exact Decimal.isPlain_text _ _

end Number

namespace Tree

open Text (Framed isPlain separated joined_eq_separated breaksLine isPlain_of_isAlphanum
  le_of_isPlain le_of_all_isPlain breaksLine_of_isPlain le_of_mem_jsonQuoted
  breaksLine_of_mem_visiblyQuoted)

/-- A truth value is written with plain characters. -/
theorem isPlain_boolText (value : Bool) : ∀ c ∈ Json.boolText value, isPlain c = true :=
  List.all_eq_true.mp (by cases value <;> rfl)

/-- A plain name has plain characters. -/
theorem isPlain_of_isPlainName {key : String} (plain : isPlainName key = true) :
    ∀ c ∈ key.toList, isPlain c = true := by
  unfold isPlainName at plain
  cases text : key.toList with
  | nil => exact List.forall_mem_nil _
  | cons first rest =>
    rw [text] at plain
    simp only [Bool.and_eq_true, List.all_eq_true, Bool.or_eq_true, decide_eq_true_eq] at plain
    obtain ⟨letter, words⟩ := plain
    have leading : first.isAlphanum = true := by rw [Char.isAlphanum, letter, Bool.true_or]
    refine List.forall_mem_cons.mpr ⟨isPlain_of_isAlphanum leading, fun c later => ?_⟩
    rcases words c later with word | rfl
    · exact isPlain_of_isAlphanum word
    · rfl

/-- In a key of the compact form nothing ends a line. -/
theorem breaksLine_of_mem_compactKey (key : String) :
    ∀ c ∈ compactKey key, breaksLine c = false := by
  unfold compactKey
  split
  · next plain =>
    exact fun c present => breaksLine_of_isPlain (isPlain_of_isPlainName plain c present)
  · exact breaksLine_of_mem_visiblyQuoted key

mutual

/-- No character of a JSON form is below the blank. -/
theorem le_of_mem_jsonChars (marker : String) : (tree : Tree) →
    ∀ c ∈ tree.jsonChars marker, 0x20 ≤ c.toNat
  | .null => le_of_all_isPlain rfl
  | .bool value => fun c present => le_of_isPlain (isPlain_boolText value c present)
  | .number value => fun c present => le_of_isPlain (Number.isPlain_text value c present)
  | .string value => le_of_mem_jsonQuoted value
  | .stripped => le_of_mem_jsonQuoted marker
  | .list items => by
    rw [jsonChars, joined_eq_separated, List.forall_mem_append, List.forall_mem_cons]
    exact ⟨⟨by decide, le_of_mem_jsonItems marker true items⟩, le_of_all_isPlain rfl⟩
  | .object members => by
    rw [jsonChars, joined_eq_separated, List.forall_mem_append, List.forall_mem_cons]
    exact ⟨⟨by decide, le_of_mem_jsonMembers marker true members⟩, le_of_all_isPlain rfl⟩

/-- No character of the items of a list is below the blank. -/
theorem le_of_mem_jsonItems (marker : String) (first : Bool) : (items : List Tree) →
    ∀ c ∈ separated first ',' (jsonItems marker items), 0x20 ≤ c.toNat
  | [] => List.forall_mem_nil _
  | item :: rest => by
    rw [jsonItems, separated, List.forall_mem_append, List.forall_mem_append]
    exact ⟨⟨le_of_all_isPlain (by cases first <;> rfl), le_of_mem_jsonChars marker item⟩,
      le_of_mem_jsonItems marker false rest⟩

/-- No character of the members of an object is below the blank. -/
theorem le_of_mem_jsonMembers (marker : String) (first : Bool) :
    (members : List (String × Tree)) →
    ∀ c ∈ separated first ',' (jsonMembers marker members), 0x20 ≤ c.toNat
  | [] => List.forall_mem_nil _
  | (key, value) :: rest => by
    rw [jsonMembers, separated]
    simp only [List.forall_mem_append, List.forall_mem_cons]
    exact ⟨⟨le_of_all_isPlain (by cases first <;> rfl), le_of_mem_jsonQuoted key, by decide,
      le_of_mem_jsonChars marker value⟩, le_of_mem_jsonMembers marker false rest⟩

end

mutual

/-- A compact form is a template filled with the marker. -/
theorem framed_compactChars : (tree : Tree) → Framed fun marker => tree.compactChars marker
  | .null => .of_all_isPlain rfl
  | .bool value => .of_forall fun c present =>
    breaksLine_of_isPlain (isPlain_boolText value c present)
  | .number value => .of_forall fun c present =>
    breaksLine_of_isPlain (Number.isPlain_text value c present)
  | .string value => .of_forall (breaksLine_of_mem_visiblyQuoted value)
  | .stripped => .gap
  | .list items => by
    simp only [compactChars, joined_eq_separated]
    exact .append (.cons rfl (framed_compactItems true items)) (.of_all_isPlain rfl)
  | .object members => by
    simp only [compactChars, joined_eq_separated]
    exact .append (.cons rfl (framed_compactMembers true members)) (.of_all_isPlain rfl)

/-- The items of a list are a template filled with the marker. -/
theorem framed_compactItems (first : Bool) : (items : List Tree) →
    Framed fun marker => separated first ' ' (compactItems marker items)
  | [] => .of_forall (List.forall_mem_nil _)
  | item :: rest => by
    simp only [compactItems, separated]
    exact .append (.append (.of_all_isPlain (by cases first <;> rfl)) (framed_compactChars item))
      (framed_compactItems false rest)

/-- The members of an object are a template filled with the marker. -/
theorem framed_compactMembers (first : Bool) : (members : List (String × Tree)) →
    Framed fun marker => separated first ' ' (compactMembers marker members)
  | [] => .of_forall (List.forall_mem_nil _)
  | (key, value) :: rest => by
    simp only [compactMembers, separated]
    have named : Framed fun _ => compactKey key := .of_forall (breaksLine_of_mem_compactKey key)
    exact .append (.append (.of_all_isPlain (by cases first <;> rfl))
      (.append named (.cons rfl (framed_compactChars value)))) (framed_compactMembers false rest)

end

/-- A rendering stays on one line. In JSON no character is below the blank, whatever the marker is.
The compact rendering is a template filled with the marker: the template depends on the tree alone,
and no character of it is a control, a line separator or a paragraph separator. -/
theorem render_on_one_line (tree : Tree) :
    (∀ marker, ∀ c ∈ (tree.render .json marker).toList, 0x20 ≤ c.toNat) ∧
    ∃ template : Text.Template, (∀ c, some c ∈ template → breaksLine c = false) ∧
      ∀ marker, (tree.render .compact marker).toList = template.filled marker := by
  refine ⟨fun marker c present => ?_, ?_⟩
  · rw [render, String.toList_ofList] at present
    exact le_of_mem_jsonChars marker tree c present
  · obtain ⟨template, calm, fills⟩ := framed_compactChars tree
    refine ⟨template, calm, fun marker => ?_⟩
    rw [render, String.toList_ofList]
    exact fills marker

/-- A line break in a text or a key is escaped; one in the marker stands where a value was. -/
example : (object [("a\nb", list [string "x\u2028", stripped])]).render .compact "\n" =
    "<\"a\\nb\":[\"x\\u\x7b2028\x7d\" \n]>" := by decide +kernel

end Tree

end Redaction

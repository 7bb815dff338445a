import Redaction.Proofs.Json.RoundTrip
import Redaction.Proofs.Tree.Blotted
import Redaction.Proofs.Tree.Inside
import Redaction.Proofs.Tree.Redacted
import Redaction.Tree.Rendering

/-!
# The text of a rendered tree

Rendering a tree as JSON and writing down its document are two recursions over the tree that yield
the same characters. What is needed to read the text back holds of the document if it holds of the
tree, and redaction keeps it.
-/

namespace Redaction.Tree

variable {marker : String}

mutual

/-- The rendering of a tree consists of the characters of its document. -/
theorem jsonChars_eq_chars : (tree : Tree) →
    tree.jsonChars marker = (tree.toJson marker).chars
  | .null | .bool _ | .number _ | .string _ | .stripped => rfl
  | .list items => by rw [jsonChars, toJson, Json.chars, jsonItems_eq_itemChars items]
  | .object members => by rw [jsonChars, toJson, Json.chars, jsonMembers_eq_memberChars members]

/-- The renderings of items consist of the characters of their documents. -/
theorem jsonItems_eq_itemChars : (items : List Tree) →
    jsonItems marker items = Json.itemChars (toItems marker items)
  | [] => rfl
  | item :: rest => by
    rw [jsonItems, toItems, Json.itemChars, jsonChars_eq_chars item, jsonItems_eq_itemChars rest]

/-- The renderings of members consist of the characters of their keys and documents. -/
theorem jsonMembers_eq_memberChars : (members : List (String × Tree)) →
    jsonMembers marker members = Json.memberChars (toMembers marker members)
  | [] => rfl
  | (key, value) :: rest => by
    rw [jsonMembers, toMembers, Json.memberChars, jsonChars_eq_chars value,
      jsonMembers_eq_memberChars rest]

end

mutual

/-- The document of a canonical tree is canonical. -/
theorem canonical_toJson : (tree : Tree) → tree.Canonical → (tree.toJson marker).Canonical
  | .null, _ | .bool _, _ | .number _, _ | .string _, _ | .stripped, _ => True.intro
  | .list items, canonical => canonicalItems_toItems items canonical
  | .object members, canonical => by
    refine ⟨?_, canonicalMembers_toMembers members canonical.2⟩
    rw [toMembers_eq_map, Members.Ordered, Members.mapValues, List.pairwise_map]
    exact canonical.1

/-- The documents of canonical items are canonical. -/
theorem canonicalItems_toItems : (items : List Tree) → CanonicalItems items →
    Json.CanonicalItems (toItems marker items)
  | [], _ => True.intro
  | item :: rest, canonical =>
    ⟨canonical_toJson item canonical.1, canonicalItems_toItems rest canonical.2⟩

/-- The documents of canonical values are canonical. -/
theorem canonicalMembers_toMembers : (members : List (String × Tree)) →
    CanonicalMembers members → Json.CanonicalMembers (toMembers marker members)
  | [], _ => True.intro
  | (_, value) :: rest, canonical =>
    ⟨canonical_toJson value canonical.1, canonicalMembers_toMembers rest canonical.2⟩

end

/-- Every float that shows in the tree is read back from its text. -/
def Legible (tree : Tree) : Prop :=
  ∀ path x, tree.Shows path (.number (.float x)) →
    Number.read (Number.float x).text = .ok (.float x, [])

/-- A tree without parts is legible if it is no float. -/
theorem legible_of_flat {tree : Tree} (noList : ∀ items, tree ≠ .list items)
    (noObject : ∀ members, tree ≠ .object members) (noFloat : ∀ x, tree ≠ .number (.float x)) :
    tree.Legible := by
  intro path x shows
  cases shows with
  | leaf => exact absurd rfl (noFloat x)
  | @item items => exact absurd rfl (noList items)
  | @member members => exact absurd rfl (noObject members)

/-- A float is legible if it is read back. -/
theorem legible_float {x : Number.Binary Number.binary64}
    (back : Number.read (Number.float x).text = .ok (.float x, [])) :
    (Tree.number (.float x)).Legible := by
  intro path y shows
  cases shows
  exact back

/-- A list is legible if its items are. -/
theorem legible_list_iff {items : List Tree} :
    (Tree.list items).Legible ↔ ∀ item ∈ items, item.Legible := by
  constructor
  · intro legible item present path x shows
    obtain ⟨position, found⟩ := List.mem_iff_getElem?.mp present
    exact legible (.index position :: path) x (.item found shows)
  · intro each path x shows
    obtain ⟨position, item, rest, rfl, found, inside⟩ := shows_list_iff.mp shows
    exact each item (List.mem_of_getElem? found) rest x inside

/-- An object is legible if its values are. -/
theorem legible_object_iff {members : List (String × Tree)} :
    (Tree.object members).Legible ↔ ∀ member ∈ members, member.2.Legible := by
  constructor
  · intro legible member present path x shows
    exact legible (.key member.1 :: path) x (.member present shows)
  · intro each path x shows
    obtain ⟨key, value, rest, rfl, present, inside⟩ := shows_object_iff.mp shows
    exact each (key, value) present rest x inside

mutual

/-- The document of a legible tree is legible. -/
theorem legible_toJson : (tree : Tree) → tree.Legible → (tree.toJson marker).Legible
  | .null, _ | .bool _, _ | .string _, _ | .stripped, _ => True.intro
  | .number (.integer n), _ => Json.legible_integer n
  | .number (.float x), legible => legible [] x (.leaf rfl)
  | .list items, legible => legibleItems_toItems items (legible_list_iff.mp legible)
  | .object members, legible =>
    legibleMembers_toMembers members (legible_object_iff.mp legible)

/-- The documents of legible items are legible. -/
theorem legibleItems_toItems : (items : List Tree) → (∀ item ∈ items, item.Legible) →
    Json.LegibleItems (toItems marker items)
  | [], _ => True.intro
  | item :: rest, legible =>
    ⟨legible_toJson item (legible item List.mem_cons_self),
      legibleItems_toItems rest fun other later => legible other (List.mem_cons_of_mem _ later)⟩

/-- The documents of legible values are legible. -/
theorem legibleMembers_toMembers : (members : List (String × Tree)) →
    (∀ member ∈ members, member.2.Legible) → Json.LegibleMembers (toMembers marker members)
  | [], _ => True.intro
  | (key, value) :: rest, legible =>
    ⟨legible_toJson value (legible (key, value) List.mem_cons_self),
      legibleMembers_toMembers rest fun other later =>
        legible other (List.mem_cons_of_mem _ later)⟩

end

section Redaction

variable {mayDrop : Prop} {before after : Tree}

/-- A step of redaction keeps the keys in order. -/
theorem RedactionStep.canonical (step : RedactionStep mayDrop before after)
    (canonical : before.Canonical) : after.Canonical := by
  induction step with
  | strip tree => exact True.intro
  | item earlier later step ih =>
    simp only [Canonical, canonicalItems_iff, List.forall_mem_append, List.forall_mem_cons]
      at canonical ⊢
    exact ⟨canonical.1, ih canonical.2.1, canonical.2.2⟩
  | member earlier key later step ih =>
    simp only [Canonical, canonicalMembers_iff, List.forall_mem_append, List.forall_mem_cons]
      at canonical ⊢
    obtain ⟨ordered, first, here, rest⟩ := canonical
    refine ⟨?_, first, ih here, rest⟩
    have keys : ((earlier ++ (key, _) :: later).map Prod.fst).Pairwise (· < ·) :=
      List.pairwise_map.mpr ordered
    rw [List.map_append, List.map_cons] at keys
    refine List.pairwise_map.mp ?_
    rw [List.map_append, List.map_cons]
    exact keys
  | drop allowed earlier key value later =>
    simp only [Canonical, canonicalMembers_iff, List.forall_mem_append, List.forall_mem_cons]
      at canonical ⊢
    obtain ⟨ordered, first, _, rest⟩ := canonical
    have part : (earlier ++ later).Sublist (earlier ++ (key, value) :: later) :=
      (List.sublist_cons_self (key, value) later).append_left earlier
    exact ⟨ordered.sublist part, first, rest⟩

/-- Redaction keeps the keys in order. -/
theorem Redacted.canonical (redacted : Redacted mayDrop before after)
    (canonical : before.Canonical) : after.Canonical := by
  induction redacted with
  | refl => exact canonical
  | tail _ step ih => exact step.canonical ih

/-- Redaction shows no other floats. -/
theorem Redacted.legible (redacted : Redacted mayDrop before after) (legible : before.Legible) :
    after.Legible :=
  fun path x visible => legible path x (redacted.shows visible)

end Redaction

end Redaction.Tree

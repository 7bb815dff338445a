import Mathlib.Data.List.Nodup
import Redaction.Proofs.Tree.Inside
import Redaction.Proofs.Tree.Part

/-!
# Trees with parts blotted out

Given a set of paths, the parts of a tree at the end of these paths are taken out, and nothing else
changes. Two paths are apart if none of them leads on from the other, so that blotting out the part
of one leaves the part of the other in its place. In a canonical tree a path leads to one part.
-/

namespace Redaction

namespace Step

/-- Whether neither of two paths leads on from the other. -/
def Apart (first second : List Step) : Prop := ¬ first <+: second ∧ ¬ second <+: first

/-- Different steps are apart. -/
theorem apart_singleton_iff {first second : Step} : Apart [first] [second] ↔ first ≠ second := by
  simp [Apart, eq_comm]

/-- Paths that go on after the same steps are apart if they are apart there. -/
theorem Apart.append_left {first second : List Step} (apart : Apart first second)
    (steps : List Step) : Apart (steps ++ first) (steps ++ second) := by
  simpa [Apart, List.prefix_append_right_inj] using apart

/-- Paths that are apart stay apart when they go on. -/
theorem Apart.append {first second : List Step} (apart : Apart first second)
    (before after : List Step) : Apart (first ++ before) (second ++ after) := by
  constructor
  · intro leads
    have whole : second <+: second ++ after := List.prefix_append second after
    rcases List.prefix_or_prefix_of_prefix ((List.prefix_append first before).trans leads) whole
      with shorter | longer
    · exact apart.1 shorter
    · exact apart.2 longer
  · intro leads
    have whole : first <+: first ++ before := List.prefix_append first before
    rcases List.prefix_or_prefix_of_prefix ((List.prefix_append second after).trans leads) whole
      with shorter | longer
    · exact apart.2 shorter
    · exact apart.1 longer

end Step

namespace Members

variable {α β : Type} {members : List (String × α)} {key : String} {value : α}

/-- Where the keys ascend, each of them occurs once. -/
theorem Ordered.nodup_keys (ordered : Ordered members) : (keys members).Nodup := by
  rw [keys, List.Nodup, List.pairwise_map]
  refine ordered.imp fun less same => ?_
  rw [same] at less
  exact String.lt_irrefl _ less

/-- Where each key occurs once, its value is the one that is found. -/
theorem find?_eq_some_iff (distinct : (keys members).Nodup) :
    find? key members = some value ↔ (key, value) ∈ members := by
  refine ⟨mem_of_find?, fun present => ?_⟩
  induction members with
  | nil => cases present
  | cons member rest ih =>
    obtain ⟨name, first⟩ := member
    rw [keys, List.map_cons, List.nodup_cons] at distinct
    rw [find?]
    rcases List.mem_cons.mp present with here | later
    · obtain ⟨rfl, rfl⟩ := Prod.mk.inj here
      rw [if_pos rfl]
    · have different : name ≠ key := fun same =>
        distinct.1 (List.mem_map.mpr ⟨(key, value), later, same.symm⟩)
      rw [if_neg different]
      exact ih distinct.2 later

/-- Nothing is gathered from a key that does not occur. -/
theorem gather_of_not_mem (f : α → List β) (absent : key ∉ keys members) :
    gather key f members = [] :=
  gather_eq_nil fun _ present => absurd (List.mem_map.mpr ⟨_, present, rfl⟩) absent

/-- Where each key occurs once, a key yields what the function yields for its value. -/
theorem gather_of_mem (distinct : (keys members).Nodup) (present : (key, value) ∈ members)
    (f : α → List β) : gather key f members = f value := by
  induction members with
  | nil => cases present
  | cons member rest ih =>
    obtain ⟨name, first⟩ := member
    rw [keys, List.map_cons, List.nodup_cons] at distinct
    rw [gather_cons]
    rcases List.mem_cons.mp present with here | later
    · obtain ⟨rfl, rfl⟩ := Prod.mk.inj here
      rw [if_pos rfl, gather_of_not_mem f distinct.1, List.append_nil]
    · have different : name ≠ key := fun same =>
        distinct.1 (List.mem_map.mpr ⟨(key, value), later, same.symm⟩)
      rw [if_neg different, List.nil_append, ih distinct.2 later]

/-- What is gathered comes from a value of the key. -/
theorem mem_gather {f : α → List β} {item : β} :
    item ∈ gather key f members ↔ ∃ value, (key, value) ∈ members ∧ item ∈ f value := by
  rw [gather, List.mem_flatMap]
  constructor
  · rintro ⟨⟨name, value⟩, present, inside⟩
    by_cases here : name = key
    · rw [if_pos here] at inside
      exact ⟨value, here ▸ present, inside⟩
    · rw [if_neg here] at inside
      cases inside
  · rintro ⟨value, present, inside⟩
    exact ⟨(key, value), present, by rwa [if_pos rfl]⟩

/-- Going on from what is gathered is gathering what comes then. -/
theorem flatMap_gather {γ : Type} (f : α → List β) (g : β → List γ) :
    (gather key f members).flatMap g = gather key (fun value => (f value).flatMap g) members := by
  rw [gather, gather, List.flatMap_assoc]
  refine List.flatMap_congr fun member _ => ?_
  split <;> rfl

end Members

namespace Tree

/-- The items of a canonical list are canonical. -/
theorem canonicalItems_iff {items : List Tree} :
    CanonicalItems items ↔ ∀ item ∈ items, item.Canonical := by
  induction items with
  | nil => simp [CanonicalItems]
  | cons item rest ih => rw [CanonicalItems, ih, List.forall_mem_cons]

/-- The values of a canonical object are canonical. -/
theorem canonicalMembers_iff {members : List (String × Tree)} :
    CanonicalMembers members ↔ ∀ member ∈ members, member.2.Canonical := by
  induction members with
  | nil => simp [CanonicalMembers]
  | cons member rest ih => rw [CanonicalMembers, ih, List.forall_mem_cons]

mutual

/-- The tree of a canonical document is canonical. -/
theorem canonical_ofJson : (document : Json) → document.Canonical → (ofJson document).Canonical
  | .null, _ | .bool _, _ | .number _, _ | .string _, _ => trivial
  | .array items, canonical => canonicalItems_ofItems items canonical
  | .object members, canonical => by
    refine ⟨?_, canonicalMembers_ofMembers members canonical.2⟩
    rw [ofMembers_eq_map, Members.Ordered, Members.mapValues, List.pairwise_map]
    exact List.Pairwise.filter _ canonical.1

/-- The trees of canonical items are canonical. -/
theorem canonicalItems_ofItems : (items : List Json) → Json.CanonicalItems items →
    CanonicalItems (ofItems items)
  | [], _ => trivial
  | item :: rest, canonical =>
    ⟨canonical_ofJson item canonical.1, canonicalItems_ofItems rest canonical.2⟩

/-- The trees of canonical values are canonical. -/
theorem canonicalMembers_ofMembers : (members : List (String × Json)) →
    Json.CanonicalMembers members → CanonicalMembers (ofMembers members)
  | [], _ => trivial
  | (key, value) :: rest, canonical => by
    have later := canonicalMembers_ofMembers rest canonical.2
    rw [ofMembers]
    cases value.isNull with
    | true => exact later
    | false => exact ⟨canonical_ofJson value canonical.1, later⟩

end

mutual

/-- The tree with the parts at the end of the chosen paths taken out. -/
def blot : (List Step → Bool) → Tree → Tree
  | chosen, .list items => if chosen [] then .stripped else .list (blotItems chosen 0 items)
  | chosen, .object members =>
    if chosen [] then .stripped else .object (blotMembers chosen members)
  | chosen, leaf => if chosen [] then .stripped else leaf

/-- The items of a list, the first of which stands at the position given, without the parts at the
end of the chosen paths. -/
def blotItems : (List Step → Bool) → Nat → List Tree → List Tree
  | _, _, [] => []
  | chosen, position, item :: rest =>
    item.blot (fun path => chosen (.index position :: path)) :: blotItems chosen (position + 1) rest

/-- The members of an object without the parts at the end of the chosen paths. -/
def blotMembers : (List Step → Bool) → List (String × Tree) → List (String × Tree)
  | _, [] => []
  | chosen, (key, value) :: rest =>
    (key, value.blot fun path => chosen (.key key :: path)) :: blotMembers chosen rest

end

variable {chosen : List Step → Bool}

/-- A chosen tree is taken out as a whole. -/
theorem blot_of_chosen (here : chosen [] = true) (tree : Tree) : tree.blot chosen = .stripped := by
  cases tree <;> exact if_pos here

/-- The items of a list are blotted out one by one. -/
theorem blotItems_eq_mapIdx (first : Nat) (items : List Tree) :
    blotItems chosen first items = items.mapIdx fun position item =>
      item.blot fun path => chosen (.index (first + position) :: path) := by
  induction items generalizing first with
  | nil => rfl
  | cons item rest ih =>
    rw [blotItems, ih, List.mapIdx_cons]
    simp only [Nat.add_zero, Nat.add_assoc, Nat.add_comm 1]

/-- A list that is not chosen keeps its length. -/
theorem blot_list (here : chosen [] = false) (items : List Tree) :
    (Tree.list items).blot chosen = .list (items.mapIdx fun position item =>
      item.blot fun path => chosen (.index position :: path)) := by
  rw [blot, here, blotItems_eq_mapIdx]
  simp only [Bool.false_eq_true, if_false, Nat.zero_add]

/-- An object that is not chosen keeps its keys. -/
theorem blot_object (here : chosen [] = false) (members : List (String × Tree)) :
    (Tree.object members).blot chosen = .object (Members.rewrite
      (fun key value => some (value.blot fun path => chosen (.key key :: path))) members) := by
  have each : blotMembers chosen members = Members.rewrite
      (fun key value => some (value.blot fun path => chosen (.key key :: path))) members := by
    induction members with
    | nil => rfl
    | cons member rest ih => rw [blotMembers, ih, Members.rewrite_cons]
  rw [blot, here, each]
  rfl

/-- If no path is chosen nothing changes. -/
theorem blot_eq_self (nothing : ∀ path, chosen path = false) (tree : Tree) :
    tree.blot chosen = tree := by
  induction tree using inductionInside generalizing chosen with
  | list items ih =>
    rw [blot_list (nothing [])]
    refine congrArg Tree.list (List.ext_getElem? fun position => ?_)
    rw [List.getElem?_mapIdx]
    cases found : items[position]? with
    | none => rfl
    | some item =>
      exact congrArg some (ih item (List.mem_of_getElem? found) fun path => nothing _)
  | object members ih =>
    rw [blot_object (nothing [])]
    refine congrArg Tree.object (Members.rewrite_eq_self fun key value present => ?_)
    exact congrArg some (ih (key, value) present fun path => nothing _)
  | _ => exact if_neg (by simp [nothing])

end Tree

end Redaction

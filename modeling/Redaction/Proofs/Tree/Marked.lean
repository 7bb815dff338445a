import Redaction.Proofs.Tree.Inside

/-!
# Trees read back from documents

In the document of a tree the marker stands in the place of each value that has been taken out. When
the document is read again, these values are texts like others. As no key has the value null in a
tree that was read from a document, nothing else changes.
-/

namespace Redaction.Tree

mutual

/-- The tree with the marker, as a text, in the place of each value that has been taken out. -/
def marked (marker : String) : Tree → Tree
  | .list items => .list (markedItems marker items)
  | .object members => .object (markedMembers marker members)
  | .stripped => .string marker
  | leaf => leaf

/-- The items of a list with the marker in them. -/
def markedItems (marker : String) : List Tree → List Tree
  | [] => []
  | item :: rest => item.marked marker :: markedItems marker rest

/-- The members of an object with the marker in them. -/
def markedMembers (marker : String) : List (String × Tree) → List (String × Tree)
  | [] => []
  | (key, value) :: rest => (key, value.marked marker) :: markedMembers marker rest

end

variable {marker : String} {tree : Tree}

/-- The marker is put into the items one by one. -/
theorem markedItems_eq_map (items : List Tree) :
    markedItems marker items = items.map (marked marker) := by
  induction items with
  | nil => rfl
  | cons item rest ih => rw [markedItems, ih, List.map_cons]

/-- The marker is put into the values of an object one by one. -/
theorem markedMembers_eq_rewrite (members : List (String × Tree)) :
    markedMembers marker members =
      Members.rewrite (fun _ value => some (value.marked marker)) members := by
  induction members with
  | nil => rfl
  | cons member rest ih =>
    obtain ⟨key, value⟩ := member
    rw [markedMembers, ih, Members.rewrite_cons]

/-- In a tree that has not been taken out itself, the marker is put into what lies inside. -/
theorem marked_eq_inside (present : tree ≠ .stripped) :
    tree.marked marker = tree.inside (marked marker) fun _ value => some (value.marked marker) := by
  cases tree with
  | list items => rw [marked, markedItems_eq_map, inside]
  | object members => rw [marked, markedMembers_eq_rewrite, inside]
  | stripped => exact absurd rfl present
  | _ => rfl

/-- A tree that is present stays so when something is done to what lies inside it. -/
theorem inside_ne_stripped {item : Tree → Tree} {rule : String → Tree → Option Tree}
    (present : tree ≠ .stripped) : tree.inside item rule ≠ .stripped := by
  cases tree with
  | stripped => exact absurd rfl present
  | _ => exact nofun

/-- What is done to the trees directly inside may be marked there. -/
theorem marked_inside {item : Tree → Tree} {rule : String → Tree → Option Tree}
    (present : tree ≠ .stripped) :
    (tree.inside item rule).marked marker =
      tree.inside (fun part => (item part).marked marker) fun key value =>
        (rule key value).map (marked marker) := by
  rw [marked_eq_inside (inside_ne_stripped present), inside_inside]
  exact inside_congr (fun _ _ => rfl) fun key value _ => (Option.map_eq_bind ..).symm

/-- The marker is put in once. -/
theorem marked_marked (tree : Tree) : (tree.marked marker).marked marker = tree.marked marker := by
  induction tree using inductionHeld with
  | step tree ih =>
    by_cases gone : tree = .stripped
    · rw [gone]
      rfl
    · rw [marked_eq_inside gone, marked_inside gone]
      exact inside_congr ih fun _ part held => congrArg some (ih part held)

/-- The marker makes no difference to the document. -/
theorem toJson_marked (tree : Tree) : (tree.marked marker).toJson marker = tree.toJson marker := by
  induction tree using inductionInside with
  | list items ih =>
    rw [marked, markedItems_eq_map, toJson, toJson, toItems_eq_map, toItems_eq_map, List.map_map]
    exact congrArg Json.array (List.map_congr_left ih)
  | object members ih =>
    rw [marked, markedMembers_eq_rewrite, ← Members.mapValues_eq_rewrite, toJson, toJson,
      toMembers_eq_map, toMembers_eq_map, Members.mapValues, Members.mapValues, List.map_map]
    refine congrArg Json.object (List.map_congr_left fun member present => ?_)
    exact congrArg (Prod.mk member.1) (ih member present)
  | _ => rfl

/-- Whether no key of an object in the tree has the value null. -/
inductive NullFree : Tree → Prop where
  /-- Neither the values of an object are null, nor those further inside. -/
  | intro {tree : Tree} (values : ∀ members, tree = .object members → ∀ member ∈ members,
      member.2 ≠ .null) (inside : ∀ part, tree.Holds part → NullFree part) : NullFree tree

/-- Only null is read as null. -/
theorem ofJson_ne_null {document : Json} (present : ¬ document.isNull = true) :
    ofJson document ≠ .null := by
  cases document with
  | null => exact absurd rfl present
  | _ => exact nofun

/-- If no key in a tree has the value null, none has in a tree directly inside. -/
theorem NullFree.of_holds (free : NullFree tree) {part : Tree} (held : tree.Holds part) :
    NullFree part := by
  obtain ⟨_, inside⟩ := free
  exact inside part held

/-- What is done to the trees directly inside brings in no keys with the value null if it makes no
value null and brings in none further inside. -/
theorem NullFree.inside {item : Tree → Tree} {rule : String → Tree → Option Tree}
    (free : NullFree tree) (items : ∀ part, tree.Holds part → NullFree (item part))
    (kept : ∀ key part remaining, tree.Holds part → part ≠ .null →
      rule key part = some remaining → remaining ≠ .null ∧ NullFree remaining) :
    NullFree (tree.inside item rule) := by
  cases tree with
  | list parts =>
    refine .intro nofun fun part held => ?_
    cases held with
    | item present =>
      obtain ⟨before, member, rfl⟩ := List.mem_map.mp present
      exact items before (.item member)
  | object members =>
    obtain ⟨values, _⟩ := free
    have each : ∀ member ∈ Members.rewrite rule members,
        member.2 ≠ .null ∧ NullFree member.2 := by
      rintro ⟨key, remaining⟩ present
      obtain ⟨before, member, rewritten⟩ := Members.mem_rewrite.mp present
      exact kept key before remaining (.value member) (values members rfl _ member) rewritten
    refine .intro (fun others same => ?_) fun part held => ?_
    · rw [Tree.inside, Tree.object.injEq] at same
      exact same ▸ fun member present => (each member present).1
    · cases held with
      | value present => exact (each _ present).2
  | _ => exact free

mutual

/-- Reading a document leaves out the keys with the value null. -/
theorem nullFree_ofJson : (document : Json) → NullFree (ofJson document)
  | .array items => by
    refine .intro nofun fun part held => ?_
    cases held with
    | item present => exact nullFree_ofItems items part present
  | .object members => by
    refine .intro (fun read same member present => ?_) fun part held => ?_
    · rw [ofJson, Tree.object.injEq] at same
      exact (nullFree_ofMembers members member (same ▸ present)).1
    · cases held with
      | value present => exact (nullFree_ofMembers members _ present).2
  | .null | .bool _ | .number _ | .string _ => .intro nofun nofun

/-- No item that is read holds a key with the value null. -/
theorem nullFree_ofItems : (items : List Json) → ∀ part ∈ ofItems items, NullFree part
  | [] => List.forall_mem_nil _
  | item :: rest => List.forall_mem_cons.mpr ⟨nullFree_ofJson item, nullFree_ofItems rest⟩

/-- No value that is read is null or holds a key with the value null. -/
theorem nullFree_ofMembers : (members : List (String × Json)) →
    ∀ member ∈ ofMembers members, member.2 ≠ .null ∧ NullFree member.2
  | [] => List.forall_mem_nil _
  | (key, value) :: rest => by
    rw [ofMembers]
    split
    · exact nullFree_ofMembers rest
    · next present =>
      exact List.forall_mem_cons.mpr
        ⟨⟨ofJson_ne_null present, nullFree_ofJson value⟩, nullFree_ofMembers rest⟩

end

/-- Only null is written as null; what has been taken out is written as the marker. -/
theorem isNull_toJson (occupied : tree ≠ .null) : (tree.toJson marker).isNull = false := by
  cases tree with
  | null => exact absurd rfl occupied
  | _ => rfl

/-- The document of a tree is read as the tree with the marker in it. -/
theorem ofJson_toJson {tree : Tree} (free : NullFree tree) :
    ofJson (tree.toJson marker) = tree.marked marker := by
  induction tree using inductionInside with
  | list items ih =>
    rw [toJson, toItems_eq_map, ofJson, ofItems_eq_map, List.map_map, marked, markedItems_eq_map]
    exact congrArg Tree.list (List.map_congr_left fun item present =>
      ih item present (free.of_holds (.item present)))
  | object members ih =>
    obtain ⟨values, inside⟩ := free
    have whole : (Members.mapValues (toJson marker) members).filter
        (fun member => !member.2.isNull) = Members.mapValues (toJson marker) members := by
      refine List.filter_eq_self.mpr (List.forall_mem_map.mpr fun member present => ?_)
      rw [isNull_toJson (values members rfl member present)]
      rfl
    rw [toJson, toMembers_eq_map, ofJson, ofMembers_eq_map, whole, Members.mapValues,
      Members.mapValues, List.map_map, marked, markedMembers_eq_rewrite,
      ← Members.mapValues_eq_rewrite]
    refine congrArg Tree.object (List.map_congr_left fun member present => ?_)
    exact congrArg (Prod.mk member.1) (ih member present (inside member.2 (.value present)))
  | _ => rfl

end Redaction.Tree

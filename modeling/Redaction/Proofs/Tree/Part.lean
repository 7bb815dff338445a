import Redaction.Proofs.Rewriting
import Redaction.Proofs.Tree.Path

/-!
# The part of a tree at the end of a path

A path of positions and keys leads to one part of a tree. Where a key stands in an object more than
once, the part is the first of those that the tree has at the end of the path.
-/

namespace Redaction.Tree

/-- The item at a position, or the value of a key. -/
def inner? : Tree → Step → Option Tree
  | .list items, .index position => items[position]?
  | .object members, .key key => Members.find? key members
  | _, _ => none

/-- The part at the end of a path. -/
def part? : Tree → List Step → Option Tree
  | tree, [] => some tree
  | tree, step :: path => (tree.inner? step).bind fun inner => inner.part? path

/-- A path is followed step by step. -/
theorem part?_cons (tree : Tree) (step : Step) (path : List Step) :
    tree.part? (step :: path) = (tree.inner? step).bind fun inner => inner.part? path := rfl

/-- A path of one step leads to a tree directly inside. -/
@[simp] theorem part?_singleton (tree : Tree) (step : Step) :
    tree.part? [step] = tree.inner? step := Option.bind_fun_some _

/-- A path after a path leads to a part of a part. -/
theorem part?_append (tree : Tree) (first second : List Step) :
    tree.part? (first ++ second) = (tree.part? first).bind fun part => part.part? second := by
  induction first generalizing tree with
  | nil => rfl
  | cons step rest ih => simp only [List.cons_append, part?_cons, ih, Option.bind_assoc]

/-- Only objects have values under keys. -/
theorem eq_object_of_inner?_key {tree inner : Tree} {key : String}
    (found : tree.inner? (.key key) = some inner) :
    ∃ members, tree = .object members ∧ Members.find? key members = some inner := by
  cases tree with
  | object members => exact ⟨members, rfl, found⟩
  | _ => cases found

/-- Only lists have items at positions. -/
theorem eq_list_of_inner?_index {tree inner : Tree} {position : Nat}
    (found : tree.inner? (.index position) = some inner) :
    ∃ items, tree = .list items ∧ items[position]? = some inner := by
  cases tree with
  | list items => exact ⟨items, rfl, found⟩
  | _ => cases found

/-- Whether a tree is an object with two members or more. -/
def isCrowded : Tree → Bool
  | .object (_ :: _ :: _) => true
  | _ => false

/-- An object is not crowded if it has one member at most. -/
theorem isCrowded_object_iff {members : List (String × Tree)} :
    (Tree.object members).isCrowded = false ↔ members.length ≤ 1 := by
  match members with
  | [] | [_] | _ :: _ :: _ => simp [isCrowded]

/-- A member of an object that is not crowded is the only one. -/
theorem eq_singleton_of_mem {members : List (String × Tree)} {member : String × Tree}
    (single : (Tree.object members).isCrowded = false) (present : member ∈ members) :
    members = [member] := by
  match members with
  | [] => cases present
  | [_] => rw [List.mem_singleton.mp present]
  | _ :: _ :: _ => cases single

/-- An object with a value under some key that is not crowded has no other member. -/
theorem eq_object_singleton {tree inner : Tree} {key : String} (single : tree.isCrowded = false)
    (found : tree.inner? (.key key) = some inner) : tree = .object [(key, inner)] := by
  obtain ⟨members, rfl, found⟩ := eq_object_of_inner?_key found
  rw [eq_singleton_of_mem single (Members.mem_of_find? found)]

/-- A tree has a part at the end of a path. -/
inductive Has : Tree → List Step → Tree → Prop where
  /-- At the end of the empty path there is the tree itself. -/
  | here (tree : Tree) : Has tree [] tree
  /-- A part of an item. -/
  | item {items : List Tree} {position : Nat} {item part : Tree} {path : List Step}
      (found : items[position]? = some item) (has : Has item path part) :
      Has (.list items) (.index position :: path) part
  /-- A part of the value of a key. -/
  | member {members : List (String × Tree)} {key : String} {value part : Tree} {path : List Step}
      (present : (key, value) ∈ members) (has : Has value path part) :
      Has (.object members) (.key key :: path) part

/-- At the end of the empty path a tree has nothing but itself. -/
theorem has_nil_iff {tree part : Tree} : tree.Has [] part ↔ part = tree := by
  constructor
  · intro has
    cases has with
    | here => rfl
  · rintro rfl
    exact .here part

/-- What a tree has below a position is a part of the item there. -/
theorem has_index_iff {tree part : Tree} {position : Nat} {path : List Step} :
    tree.Has (.index position :: path) part ↔
      ∃ items item, tree = .list items ∧ items[position]? = some item ∧ item.Has path part := by
  constructor
  · intro has
    cases has with
    | item found has => exact ⟨_, _, rfl, found, has⟩
  · rintro ⟨items, item, rfl, found, has⟩
    exact .item found has

/-- What a tree has below a key is a part of a value of the key. -/
theorem has_key_iff {tree part : Tree} {key : String} {path : List Step} :
    tree.Has (.key key :: path) part ↔
      ∃ members value, tree = .object members ∧ (key, value) ∈ members ∧ value.Has path part := by
  constructor
  · intro has
    cases has with
    | member present has => exact ⟨_, _, rfl, present, has⟩
  · rintro ⟨members, value, rfl, present, has⟩
    exact .member present has

/-- What a tree has at the end of a path after a path is a part of a part. -/
theorem has_append_iff {tree part : Tree} {first second : List Step} :
    tree.Has (first ++ second) part ↔
      ∃ middle, tree.Has first middle ∧ middle.Has second part := by
  induction first generalizing tree with
  | nil => simp only [List.nil_append, has_nil_iff, exists_eq_left]
  | cons step rest ih =>
    constructor
    · intro has
      cases has with
      | item found has =>
        obtain ⟨middle, before, after⟩ := ih.mp has
        exact ⟨middle, .item found before, after⟩
      | member present has =>
        obtain ⟨middle, before, after⟩ := ih.mp has
        exact ⟨middle, .member present before, after⟩
    · rintro ⟨middle, before, after⟩
      cases before with
      | item found before => exact .item found (ih.mpr ⟨middle, before, after⟩)
      | member present before => exact .member present (ih.mpr ⟨middle, before, after⟩)

end Redaction.Tree

import Redaction.Tree.Basic

/-!
# Paths to the leaves of a tree

A leaf is a truth value, a number or a text. It shows at the end of the path of positions and keys
that lead to it. Where a value has been taken out, nothing shows at any path.
-/

namespace Redaction

/-- One step from a list or an object to a value inside it. -/
inductive Step where
  /-- To the item at a position of a list. -/
  | index (position : Nat)
  /-- To the value of a key of an object. -/
  | key (key : String)
deriving DecidableEq, Repr

namespace Tree

/-- Whether the tree is a truth value, a number or a text. -/
def isLeaf : Tree → Bool
  | .bool _ | .number _ | .string _ => true
  | _ => false

/-- A leaf shows in a tree at the end of a path. -/
inductive Shows : Tree → List Step → Tree → Prop where
  /-- A leaf shows at once. -/
  | leaf {tree : Tree} (plain : tree.isLeaf = true) : Shows tree [] tree
  /-- A leaf of an item shows below the position of the item. -/
  | item {items : List Tree} {position : Nat} {item : Tree} {path : List Step} {leaf : Tree}
      (found : items[position]? = some item) (shows : Shows item path leaf) :
      Shows (.list items) (.index position :: path) leaf
  /-- A leaf of a value shows below the key of the value. -/
  | member {members : List (String × Tree)} {key : String} {value : Tree} {path : List Step}
      {leaf : Tree} (present : (key, value) ∈ members) (shows : Shows value path leaf) :
      Shows (.object members) (.key key :: path) leaf

/-- What has been taken out does not show. -/
theorem not_shows_stripped {path : List Step} {leaf : Tree} : ¬ Shows .stripped path leaf := by
  intro shows
  cases shows with
  | leaf plain => cases plain

/-- The value null does not show. -/
theorem not_shows_null {path : List Step} {leaf : Tree} : ¬ Shows .null path leaf := by
  intro shows
  cases shows with
  | leaf plain => cases plain

/-- What shows in a list shows in one of its items. -/
theorem shows_list_iff {items : List Tree} {path : List Step} {leaf : Tree} :
    Shows (.list items) path leaf ↔
      ∃ position item rest, path = .index position :: rest ∧ items[position]? = some item ∧
        item.Shows rest leaf := by
  constructor
  · intro shows
    cases shows with
    | leaf plain => cases plain
    | item found shows => exact ⟨_, _, _, rfl, found, shows⟩
  · rintro ⟨position, item, rest, rfl, found, shows⟩
    exact .item found shows

/-- What shows in an object shows in the value of one of its keys. -/
theorem shows_object_iff {members : List (String × Tree)} {path : List Step} {leaf : Tree} :
    Shows (.object members) path leaf ↔
      ∃ key value rest, path = .key key :: rest ∧ (key, value) ∈ members ∧
        value.Shows rest leaf := by
  constructor
  · intro shows
    cases shows with
    | leaf plain => cases plain
    | member present shows => exact ⟨_, _, _, rfl, present, shows⟩
  · rintro ⟨key, value, rest, rfl, present, shows⟩
    exact .member present shows

/-- Two lists of items one after the other are as deep as the deeper of them. -/
theorem itemsDepth_append (first second : List Tree) :
    itemsDepth (first ++ second) = max (itemsDepth first) (itemsDepth second) := by
  induction first with
  | nil => simp [itemsDepth]
  | cons item rest ih => rw [List.cons_append, itemsDepth, itemsDepth, ih, Nat.max_assoc]

/-- Two lists of members one after the other are as deep as the deeper of them. -/
theorem membersDepth_append (first second : List (String × Tree)) :
    membersDepth (first ++ second) = max (membersDepth first) (membersDepth second) := by
  induction first with
  | nil => simp [membersDepth]
  | cons member rest ih =>
    obtain ⟨key, value⟩ := member
    rw [List.cons_append, membersDepth, membersDepth, ih, Nat.max_assoc]

/-- The depth of the items is bounded as soon as that of each item is. -/
theorem itemsDepth_le_iff {items : List Tree} {bound : Nat} :
    itemsDepth items ≤ bound ↔ ∀ item ∈ items, item.depth ≤ bound := by
  induction items with
  | nil => simp [itemsDepth]
  | cons item rest ih => rw [itemsDepth, Nat.max_le, ih, List.forall_mem_cons]

/-- The depth of the members is bounded as soon as that of each value is. -/
theorem membersDepth_le_iff {members : List (String × Tree)} {bound : Nat} :
    membersDepth members ≤ bound ↔ ∀ member ∈ members, member.2.depth ≤ bound := by
  induction members with
  | nil => simp [membersDepth]
  | cons member rest ih =>
    obtain ⟨key, value⟩ := member
    rw [membersDepth, Nat.max_le, ih, List.forall_mem_cons]

end Tree

end Redaction

import Redaction.Proofs.Rewriting
import Redaction.Walk.Problem

/-!
# Skeletons

The skeleton of a tree has the same lists and objects, with the same keys and lengths, but each
truth value, number and text in it is replaced by a fixed one. So two trees have the same skeleton
if they differ in the contents of these leaves only. The same goes for documents.
-/

namespace Redaction

/-- The number in the place of every number of a skeleton. -/
def Number.zero : Number := .integer ⟨0, by decide, by decide⟩

namespace Json

mutual

/-- The document without the contents of its truth values, numbers and texts. -/
def skeleton : Json → Json
  | .null => .null
  | .bool _ => .bool false
  | .number _ => .number .zero
  | .string _ => .string ""
  | .array items => .array (itemSkeletons items)
  | .object members => .object (memberSkeletons members)

/-- The skeletons of the items of a list. -/
def itemSkeletons : List Json → List Json
  | [] => []
  | item :: rest => item.skeleton :: itemSkeletons rest

/-- The members of an object with the skeletons of their values. -/
def memberSkeletons : List (String × Json) → List (String × Json)
  | [] => []
  | (key, value) :: rest => (key, value.skeleton) :: memberSkeletons rest

end

/-- A skeleton is `null` where the document is. -/
theorem isNull_skeleton (document : Json) : document.skeleton.isNull = document.isNull := by
  cases document <;> rfl

end Json

namespace Tree

mutual

/-- The tree without the contents of its truth values, numbers and texts. -/
def skeleton : Tree → Tree
  | .null => .null
  | .bool _ => .bool false
  | .number _ => .number .zero
  | .string _ => .string ""
  | .list items => .list (itemSkeletons items)
  | .object members => .object (memberSkeletons members)
  | .stripped => .stripped

/-- The skeletons of the items of a list. -/
def itemSkeletons : List Tree → List Tree
  | [] => []
  | item :: rest => item.skeleton :: itemSkeletons rest

/-- The members of an object with the skeletons of their values. -/
def memberSkeletons : List (String × Tree) → List (String × Tree)
  | [] => []
  | (key, value) :: rest => (key, value.skeleton) :: memberSkeletons rest

end

/-- Each item of a list has its skeleton. -/
theorem itemSkeletons_eq_map (items : List Tree) : itemSkeletons items = items.map skeleton := by
  induction items with
  | nil => rfl
  | cons item rest ih => rw [itemSkeletons, ih, List.map_cons]

/-- Each member of an object keeps its key. -/
theorem memberSkeletons_eq_mapValues (members : List (String × Tree)) :
    memberSkeletons members = Members.mapValues skeleton members := by
  induction members with
  | nil => rfl
  | cons member rest ih => rw [memberSkeletons, ih]; rfl

/-- The skeleton of a list. -/
@[simp] theorem skeleton_list (items : List Tree) :
    (Tree.list items).skeleton = .list (items.map skeleton) := by
  rw [skeleton, itemSkeletons_eq_map]

/-- The skeleton of an object. -/
@[simp] theorem skeleton_object (members : List (String × Tree)) :
    (Tree.object members).skeleton = .object (Members.mapValues skeleton members) := by
  rw [skeleton, memberSkeletons_eq_mapValues]

mutual

/-- A skeleton is as deep as its tree. -/
theorem depth_skeleton : (tree : Tree) → tree.skeleton.depth = tree.depth
  | .null | .bool _ | .number _ | .string _ | .stripped => rfl
  | .list items => congrArg (· + 1) (itemsDepth_itemSkeletons items)
  | .object members => congrArg (· + 1) (membersDepth_memberSkeletons members)

/-- The skeletons of items are as deep as the items. -/
theorem itemsDepth_itemSkeletons : (items : List Tree) →
    itemsDepth (itemSkeletons items) = itemsDepth items
  | [] => rfl
  | item :: rest => congrArg₂ max (depth_skeleton item) (itemsDepth_itemSkeletons rest)

/-- The skeletons of values are as deep as the values. -/
theorem membersDepth_memberSkeletons : (members : List (String × Tree)) →
    membersDepth (memberSkeletons members) = membersDepth members
  | [] => rfl
  | (_, value) :: rest => congrArg₂ max (depth_skeleton value) (membersDepth_memberSkeletons rest)

end

mutual

/-- The tree of a skeleton is the skeleton of the tree. -/
theorem ofJson_skeleton : (document : Json) → ofJson document.skeleton = (ofJson document).skeleton
  | .null | .bool _ | .number _ | .string _ => rfl
  | .array items => congrArg Tree.list (ofItems_itemSkeletons items)
  | .object members => congrArg Tree.object (ofMembers_memberSkeletons members)

/-- The trees of the skeletons of items are the skeletons of the trees. -/
theorem ofItems_itemSkeletons : (items : List Json) →
    ofItems (Json.itemSkeletons items) = itemSkeletons (ofItems items)
  | [] => rfl
  | item :: rest => congrArg₂ List.cons (ofJson_skeleton item) (ofItems_itemSkeletons rest)

/-- The trees of the skeletons of members are the skeletons of the trees. -/
theorem ofMembers_memberSkeletons : (members : List (String × Json)) →
    ofMembers (Json.memberSkeletons members) = memberSkeletons (ofMembers members)
  | [] => rfl
  | (key, value) :: rest => by
    have later := ofMembers_memberSkeletons rest
    rw [Json.memberSkeletons, ofMembers, ofMembers, Json.isNull_skeleton]
    cases value.isNull with
    | true => exact later
    | false => exact congrArg₂ List.cons (congrArg (Prod.mk key) (ofJson_skeleton value)) later

end

end Tree

end Redaction

import Redaction.Json.Basic

/-!
# Trees

A tree is a document in which some values may have been taken out. It is what a message becomes
before it is redacted and what is rendered afterwards.
-/

namespace Redaction

/-- A document in which values may have been taken out. -/
inductive Tree where
  /-- The value `null`. -/
  | null
  /-- A truth value. -/
  | bool (value : Bool)
  /-- A number. -/
  | number (value : Number)
  /-- A text. -/
  | string (value : String)
  /-- A list of trees. -/
  | list (items : List Tree)
  /-- An object with its members, in the order of their keys. -/
  | object (members : List (String × Tree))
  /-- A value that has been taken out. -/
  | stripped
deriving Inhabited

namespace Tree

mutual

/-- Decides whether two trees are equal. -/
def decEq : (a b : Tree) → Decidable (a = b)
  | .null, .null => isTrue rfl
  | .stripped, .stripped => isTrue rfl
  | .bool a, .bool b => decidable_of_iff (a = b) (by simp)
  | .number a, .number b => decidable_of_iff (a = b) (by simp)
  | .string a, .string b => decidable_of_iff (a = b) (by simp)
  | .list a, .list b =>
    have := decEqItems a b
    decidable_of_iff (a = b) (by simp)
  | .object a, .object b =>
    have := decEqMembers a b
    decidable_of_iff (a = b) (by simp)
  | .null, .bool _ | .null, .number _ | .null, .string _ | .null, .list _ | .null, .object _
  | .bool _, .null | .bool _, .number _ | .bool _, .string _ | .bool _, .list _
  | .bool _, .object _ | .number _, .null | .number _, .bool _ | .number _, .string _
  | .number _, .list _ | .number _, .object _ | .string _, .null | .string _, .bool _
  | .string _, .number _ | .string _, .list _ | .string _, .object _ | .list _, .null
  | .list _, .bool _ | .list _, .number _ | .list _, .string _ | .list _, .object _
  | .object _, .null | .object _, .bool _ | .object _, .number _ | .object _, .string _
  | .object _, .list _ | .null, .stripped | .bool _, .stripped | .number _, .stripped
  | .string _, .stripped | .list _, .stripped | .object _, .stripped | .stripped, .null
  | .stripped, .bool _ | .stripped, .number _ | .stripped, .string _ | .stripped, .list _
  | .stripped, .object _ => isFalse nofun

/-- Decides whether two lists of trees are equal. -/
def decEqItems : (a b : List Tree) → Decidable (a = b)
  | [], [] => isTrue rfl
  | x :: xs, y :: ys =>
    have := decEq x y
    have := decEqItems xs ys
    decidable_of_iff (x = y ∧ xs = ys) (by simp)
  | [], _ :: _ | _ :: _, [] => isFalse nofun

/-- Decides whether two lists of members are equal. -/
def decEqMembers : (a b : List (String × Tree)) → Decidable (a = b)
  | [], [] => isTrue rfl
  | (k, x) :: xs, (l, y) :: ys =>
    have := decEq x y
    have := decEqMembers xs ys
    decidable_of_iff ((k = l ∧ x = y) ∧ xs = ys) (by simp)
  | [], _ :: _ | _ :: _, [] => isFalse nofun

end

instance : DecidableEq Tree := decEq

/-- Whether the value has been taken out. -/
def isStripped : Tree → Bool
  | .stripped => true
  | _ => false

/-- The members, if the tree is an object. -/
def members? : Tree → Option (List (String × Tree))
  | .object members => some members
  | _ => none

/-- The value of a key, if the tree is an object that has the key. -/
def find? (tree : Tree) (key : String) : Option Tree := tree.members?.bind (Members.find? key)

/-- The tree at the end of a path of keys; lists have no keys. -/
def at? (tree : Tree) : List String → Option Tree
  | [] => some tree
  | key :: path => do (← tree.find? key).at? path

mutual

/-- How many lists and objects lie inside each other at most. -/
def depth : Tree → Nat
  | .list items => itemsDepth items + 1
  | .object members => membersDepth members + 1
  | _ => 0

/-- The greatest depth among the items of a list. -/
def itemsDepth : List Tree → Nat
  | [] => 0
  | item :: rest => max item.depth (itemsDepth rest)

/-- The greatest depth among the values of an object. -/
def membersDepth : List (String × Tree) → Nat
  | [] => 0
  | (_, value) :: rest => max value.depth (membersDepth rest)

end

mutual

/-- The tree of a document. A member that is `null` counts as absent; an item that is `null` stays,
so that the places of the other items do not change. -/
def ofJson : Json → Tree
  | .null => .null
  | .bool value => .bool value
  | .number value => .number value
  | .string value => .string value
  | .array items => .list (ofItems items)
  | .object members => .object (ofMembers members)

/-- The trees of the items of a list. -/
def ofItems : List Json → List Tree
  | [] => []
  | item :: rest => ofJson item :: ofItems rest

/-- The members of an object that are not `null`, as trees. -/
def ofMembers : List (String × Json) → List (String × Tree)
  | [] => []
  | (key, value) :: rest =>
    if value.isNull then ofMembers rest else (key, ofJson value) :: ofMembers rest

end

mutual

/-- The document of a tree, with a text in the place of each value that has been taken out. -/
def toJson (marker : String) : Tree → Json
  | .null => .null
  | .bool value => .bool value
  | .number value => .number value
  | .string value => .string value
  | .list items => .array (toItems marker items)
  | .object members => .object (toMembers marker members)
  | .stripped => .string marker

/-- The documents of the items of a list. -/
def toItems (marker : String) : List Tree → List Json
  | [] => []
  | item :: rest => item.toJson marker :: toItems marker rest

/-- The members of an object as documents. -/
def toMembers (marker : String) : List (String × Tree) → List (String × Json)
  | [] => []
  | (key, value) :: rest => (key, value.toJson marker) :: toMembers marker rest

end

/-- Each item of a list is converted by itself. -/
theorem ofItems_eq_map (items : List Json) : ofItems items = items.map ofJson := by
  induction items with
  | nil => rfl
  | cons item rest ih => rw [ofItems, ih, List.map_cons]

/-- The members that are `null` are left out and the others are converted one by one. -/
theorem ofMembers_eq_map (members : List (String × Json)) :
    ofMembers members =
      Members.mapValues ofJson (members.filter fun member => !member.2.isNull) := by
  induction members with
  | nil => rfl
  | cons member rest ih =>
    rw [ofMembers, ih]
    cases h : member.2.isNull <;> simp [Members.mapValues, h]

/-- Each item of a list is converted by itself. -/
theorem toItems_eq_map (marker : String) (items : List Tree) :
    toItems marker items = items.map (toJson marker) := by
  induction items with
  | nil => rfl
  | cons item rest ih => rw [toItems, ih, List.map_cons]

/-- Each member of an object is converted by itself. -/
theorem toMembers_eq_map (marker : String) (members : List (String × Tree)) :
    toMembers marker members = Members.mapValues (toJson marker) members := by
  induction members with
  | nil => rfl
  | cons member rest ih => rw [toMembers, ih]; rfl

mutual

/-- Whether the keys of every object in the tree ascend. -/
def Canonical : Tree → Prop
  | .list items => CanonicalItems items
  | .object members => Members.Ordered members ∧ CanonicalMembers members
  | _ => True

/-- Whether all items are canonical. -/
def CanonicalItems : List Tree → Prop
  | [] => True
  | item :: rest => item.Canonical ∧ CanonicalItems rest

/-- Whether the values of all members are canonical. -/
def CanonicalMembers : List (String × Tree) → Prop
  | [] => True
  | (_, value) :: rest => value.Canonical ∧ CanonicalMembers rest

end

end Tree

end Redaction

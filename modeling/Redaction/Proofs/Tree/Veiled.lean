import Redaction.Proofs.Tree.Inside
import Redaction.Proofs.Tree.Part
import Redaction.Proofs.Tree.Redacted

/-!
# Trees with values taken out

A tree is a veiled form of another one if both have the same form up to values that have been taken
out: a list keeps its items and their order, an object keeps its keys, or loses some where this is
allowed, and every other value stays. Nothing is added, moved, renamed or altered. Steps of
redaction never lead to anything else.
-/

namespace Redaction.Tree

mutual

/-- The second tree is the first with some values taken out. Members may be missing from its objects
only if the proposition holds. -/
inductive Veiled (mayDrop : Prop) : Tree → Tree → Prop where
  /-- Any value may have been taken out. -/
  | stripped (tree : Tree) : Veiled mayDrop tree .stripped
  /-- The value null stays. -/
  | null : Veiled mayDrop .null .null
  /-- A truth value, a number and a text stay the same. -/
  | leaf {tree : Tree} (plain : tree.isLeaf = true) : Veiled mayDrop tree tree
  /-- A list stays a list, with the items in their places. -/
  | list {items others : List Tree} (each : VeiledItems mayDrop items others) :
      Veiled mayDrop (.list items) (.list others)
  /-- An object stays an object, with the values under their keys. -/
  | object {members others : List (String × Tree)} (each : VeiledMembers mayDrop members others) :
      Veiled mayDrop (.object members) (.object others)

/-- Two lists of the same length whose items correspond position by position. -/
inductive VeiledItems (mayDrop : Prop) : List Tree → List Tree → Prop where
  /-- No items. -/
  | nil : VeiledItems mayDrop [] []
  /-- Two items in the same place. -/
  | cons {before after : Tree} {items others : List Tree} (first : Veiled mayDrop before after)
      (rest : VeiledItems mayDrop items others) :
      VeiledItems mayDrop (before :: items) (after :: others)

/-- Two lists of members whose values correspond key by key. -/
inductive VeiledMembers (mayDrop : Prop) : List (String × Tree) → List (String × Tree) → Prop where
  /-- No members. -/
  | nil : VeiledMembers mayDrop [] []
  /-- Two values of the same key. -/
  | keep {before after : Tree} {members others : List (String × Tree)} (key : String)
      (first : Veiled mayDrop before after) (rest : VeiledMembers mayDrop members others) :
      VeiledMembers mayDrop ((key, before) :: members) ((key, after) :: others)
  /-- A member that is missing, where this is allowed. -/
  | drop (allowed : mayDrop) {members others : List (String × Tree)} (key : String) (value : Tree)
      (rest : VeiledMembers mayDrop members others) :
      VeiledMembers mayDrop ((key, value) :: members) others

end

variable {mayDrop : Prop}

/-- What is left of a value that has been taken out veils any value. -/
theorem Veiled.of_stripped {after : Tree} (veiled : Veiled mayDrop .stripped after) (tree : Tree) :
    Veiled mayDrop tree after := by
  cases veiled <;> exact .stripped tree

section Refl

/-- Items that stay the same. -/
theorem VeiledItems.refl_of {items : List Tree} (each : ∀ item ∈ items, Veiled mayDrop item item) :
    VeiledItems mayDrop items items := by
  induction items with
  | nil => exact .nil
  | cons item rest ih =>
    exact .cons (each item List.mem_cons_self)
      (ih fun item later => each item (List.mem_cons_of_mem _ later))

/-- Members that stay the same. -/
theorem VeiledMembers.refl_of {members : List (String × Tree)}
    (each : ∀ member ∈ members, Veiled mayDrop member.2 member.2) :
    VeiledMembers mayDrop members members := by
  induction members with
  | nil => exact .nil
  | cons member rest ih =>
    exact .keep member.1 (each member List.mem_cons_self)
      (ih fun member later => each member (List.mem_cons_of_mem _ later))

/-- A tree may stay as it is. -/
theorem Veiled.refl (tree : Tree) : Veiled mayDrop tree tree := by
  induction tree using inductionInside with
  | null => exact .null
  | bool | number | string => exact .leaf rfl
  | list items each => exact .list (.refl_of each)
  | object members each => exact .object (.refl_of each)
  | stripped => exact .stripped _

end Refl

section Trans

/-- Items twice veiled are veiled, if this holds of each of them. -/
theorem VeiledItems.trans_of {first second third : List Tree}
    (each : ∀ item ∈ first, ∀ between last, Veiled mayDrop item between →
      Veiled mayDrop between last → Veiled mayDrop item last)
    (before : VeiledItems mayDrop first second) (after : VeiledItems mayDrop second third) :
    VeiledItems mayDrop first third := by
  induction first generalizing second third with
  | nil =>
    cases before
    exact after
  | cons item rest ih =>
    obtain _ | ⟨start, later⟩ := before
    obtain _ | ⟨finish, last⟩ := after
    exact .cons (each item List.mem_cons_self _ _ start finish)
      (ih (fun item member => each item (List.mem_cons_of_mem _ member)) later last)

/-- Members twice veiled are veiled, if this holds of the value of each of them. -/
theorem VeiledMembers.trans_of {first second third : List (String × Tree)}
    (each : ∀ member ∈ first, ∀ between last, Veiled mayDrop member.2 between →
      Veiled mayDrop between last → Veiled mayDrop member.2 last)
    (before : VeiledMembers mayDrop first second) (after : VeiledMembers mayDrop second third) :
    VeiledMembers mayDrop first third := by
  induction first generalizing second third with
  | nil =>
    cases before
    exact after
  | cons member rest ih =>
    have tail := fun member later => each member (List.mem_cons_of_mem _ later)
    cases before with
    | keep key start later =>
      cases after with
      | keep _ finish last =>
        exact .keep key (each _ List.mem_cons_self _ _ start finish) (ih tail later last)
      | drop allowed _ _ last => exact .drop allowed key _ (ih tail later last)
    | drop allowed key value later => exact .drop allowed key value (ih tail later after)

/-- A veiled form of a veiled form is a veiled form. -/
theorem Veiled.trans {first second third : Tree} (before : Veiled mayDrop first second)
    (after : Veiled mayDrop second third) : Veiled mayDrop first third := by
  induction first using inductionInside generalizing second third with
  | list items each =>
    cases before with
    | stripped => exact after.of_stripped _
    | leaf plain => cases plain
    | list start =>
      cases after with
      | stripped => exact .stripped _
      | leaf plain => cases plain
      | list finish =>
        exact .list (.trans_of (fun item member _ _ => each item member) start finish)
  | object members each =>
    cases before with
    | stripped => exact after.of_stripped _
    | leaf plain => cases plain
    | object start =>
      cases after with
      | stripped => exact .stripped _
      | leaf plain => cases plain
      | object finish =>
        exact .object (.trans_of (fun member present _ _ => each member present) start finish)
  | _ =>
    -- what holds no other values stays or is taken out
    cases before with
    | stripped => exact after.of_stripped _
    | _ => exact after

end Trans

/-- Items before those that correspond stay the same. -/
theorem VeiledItems.append (earlier : List Tree) {items others : List Tree}
    (later : VeiledItems mayDrop items others) :
    VeiledItems mayDrop (earlier ++ items) (earlier ++ others) := by
  induction earlier with
  | nil => exact later
  | cons item rest ih => exact .cons (.refl item) ih

/-- Members before those that correspond stay the same. -/
theorem VeiledMembers.append (earlier : List (String × Tree))
    {members others : List (String × Tree)} (later : VeiledMembers mayDrop members others) :
    VeiledMembers mayDrop (earlier ++ members) (earlier ++ others) := by
  induction earlier with
  | nil => exact later
  | cons member rest ih => exact .keep member.1 (.refl member.2) ih

/-- A step of redaction veils. -/
theorem RedactionStep.veiled {before after : Tree} (step : RedactionStep mayDrop before after) :
    Veiled mayDrop before after := by
  induction step with
  | strip tree => exact .stripped tree
  | item earlier later _ ih =>
    exact .list (.append earlier (.cons ih (.refl_of fun item _ => .refl item)))
  | member earlier key later _ ih =>
    exact .object (.append earlier (.keep key ih (.refl_of fun member _ => .refl member.2)))
  | drop allowed earlier key value later =>
    exact .object (.append earlier (.drop allowed key value (.refl_of fun member _ =>
      .refl member.2)))

/-- Any number of steps of redaction veils. -/
theorem Redacted.veiled {before after : Tree} (redacted : Redacted mayDrop before after) :
    Veiled mayDrop before after := by
  induction redacted with
  | refl => exact .refl before
  | tail _ step ih => exact ih.trans step.veiled

/-- Items at the same position correspond. -/
theorem VeiledItems.exists_of_getElem? {items others : List Tree} {position : Nat} {after : Tree}
    (each : VeiledItems mayDrop items others) (found : others[position]? = some after) :
    ∃ before, items[position]? = some before ∧ Veiled mayDrop before after := by
  induction position generalizing items others with
  | zero =>
    cases each with
    | nil => cases found
    | cons first rest =>
      obtain rfl := Option.some.inj found
      exact ⟨_, rfl, first⟩
  | succ position ih =>
    cases each with
    | nil => cases found
    | cons first rest => exact ih rest found

/-- A value after the redaction comes from one of the same key. -/
theorem VeiledMembers.exists_of_mem {members others : List (String × Tree)} {key : String}
    {after : Tree} (each : VeiledMembers mayDrop members others) (present : (key, after) ∈ others) :
    ∃ before, (key, before) ∈ members ∧ Veiled mayDrop before after := by
  induction members generalizing others with
  | nil =>
    cases each with
    | nil => cases present
  | cons member rest ih =>
    cases each with
    | keep name first later =>
      rcases List.mem_cons.mp present with here | further
      · obtain ⟨rfl, rfl⟩ := Prod.mk.inj here
        exact ⟨_, List.mem_cons_self, first⟩
      · obtain ⟨before, found, veiled⟩ := ih later further
        exact ⟨before, List.mem_cons_of_mem _ found, veiled⟩
    | drop _ name value later =>
      obtain ⟨before, found, veiled⟩ := ih later present
      exact ⟨before, List.mem_cons_of_mem _ found, veiled⟩

/-- What a veiled tree has comes from what the tree before has at the same path. -/
theorem Veiled.exists_of_has {before after left : Tree} {path : List Step}
    (veiled : Veiled mayDrop before after) (has : after.Has path left) :
    ∃ origin, before.Has path origin ∧ Veiled mayDrop origin left := by
  induction has generalizing before with
  | here after => exact ⟨before, .here before, veiled⟩
  | item found _ ih =>
    cases veiled with
    | leaf plain => cases plain
    | list each =>
      obtain ⟨item, here, inner⟩ := each.exists_of_getElem? found
      obtain ⟨origin, inside, veiled⟩ := ih inner
      exact ⟨origin, .item here inside, veiled⟩
  | member present _ ih =>
    cases veiled with
    | leaf plain => cases plain
    | object each =>
      obtain ⟨value, here, inner⟩ := each.exists_of_mem present
      obtain ⟨origin, inside, veiled⟩ := ih inner
      exact ⟨origin, .member here inside, veiled⟩

/-- Redacted members are not more than before. -/
theorem VeiledMembers.length_le {members others : List (String × Tree)}
    (each : VeiledMembers mayDrop members others) : others.length ≤ members.length := by
  induction members generalizing others with
  | nil =>
    cases each with
    | nil => exact Nat.le_refl _
  | cons member rest ih =>
    cases each with
    | keep name first later => exact Nat.succ_le_succ (ih later)
    | drop _ name value later => exact Nat.le_succ_of_le (ih later)

/-- Redaction adds no members. -/
theorem Veiled.isCrowded {before after : Tree} (veiled : Veiled mayDrop before after)
    (single : before.isCrowded = false) : after.isCrowded = false := by
  cases veiled with
  | stripped | null | list => rfl
  | leaf => exact single
  | object each =>
    rw [isCrowded_object_iff] at single ⊢
    exact Nat.le_trans each.length_le single

/-- What has been taken out stays so. -/
theorem Veiled.eq_stripped {after : Tree} (veiled : Veiled mayDrop .stripped after) :
    after = .stripped := by
  cases veiled with
  | stripped => rfl
  | leaf plain => cases plain

/-- An object comes from an object. -/
theorem Veiled.eq_object {before : Tree} {others : List (String × Tree)}
    (veiled : Veiled mayDrop before (.object others)) :
    ∃ members, before = .object members ∧ VeiledMembers mayDrop members others := by
  cases veiled with
  | leaf plain => cases plain
  | object each => exact ⟨_, rfl, each⟩

/-- A list comes from a list. -/
theorem Veiled.eq_list {before : Tree} {others : List Tree}
    (veiled : Veiled mayDrop before (.list others)) :
    ∃ items, before = .list items ∧ VeiledItems mayDrop items others := by
  cases veiled with
  | leaf plain => cases plain
  | list each => exact ⟨_, rfl, each⟩

/-- Whether everything that a tree has at the end of a path has been taken out. -/
def Conceals (tree : Tree) (path : List Step) : Prop :=
  ∀ part, tree.Has path part → part = .stripped

/-- What has been taken out at the end of a path does not come back. -/
theorem Veiled.conceals {before after : Tree} {path : List Step}
    (veiled : Veiled mayDrop before after) (conceals : before.Conceals path) :
    after.Conceals path := by
  intro left has
  obtain ⟨origin, here, inner⟩ := veiled.exists_of_has has
  obtain rfl := conceals origin here
  exact inner.eq_stripped

end Redaction.Tree

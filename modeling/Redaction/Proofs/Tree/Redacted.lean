import Mathlib.Logic.Relation
import Redaction.Proofs.Rewriting
import Redaction.Proofs.Tree.Path

/-!
# Redacted trees

A tree is redacted in steps. A step takes out one value somewhere in the tree or, where this is
allowed, removes one member of an object. So redaction never makes a tree deeper and never lets a
leaf show that did not show before.
-/

namespace Redaction.Tree

open Relation

variable {mayDrop : Prop}

/-- A single step of redaction. Members may be removed only if the proposition holds. -/
inductive RedactionStep (mayDrop : Prop) : Tree → Tree → Prop where
  /-- The whole value is taken out. -/
  | strip (tree : Tree) : RedactionStep mayDrop tree .stripped
  /-- One item of a list is redacted. -/
  | item {before after : Tree} (earlier later : List Tree)
      (step : RedactionStep mayDrop before after) :
      RedactionStep mayDrop (.list (earlier ++ before :: later))
        (.list (earlier ++ after :: later))
  /-- One value of an object is redacted. -/
  | member {before after : Tree} (earlier : List (String × Tree)) (key : String)
      (later : List (String × Tree)) (step : RedactionStep mayDrop before after) :
      RedactionStep mayDrop (.object (earlier ++ (key, before) :: later))
        (.object (earlier ++ (key, after) :: later))
  /-- One member of an object is removed. -/
  | drop (allowed : mayDrop) (earlier : List (String × Tree)) (key : String) (value : Tree)
      (later : List (String × Tree)) :
      RedactionStep mayDrop (.object (earlier ++ (key, value) :: later))
        (.object (earlier ++ later))

/-- The second tree is the first after some steps of redaction. -/
def Redacted (mayDrop : Prop) : Tree → Tree → Prop := ReflTransGen (RedactionStep mayDrop)

/-- A step does not make a tree deeper. -/
theorem RedactionStep.depth_le {before after : Tree} (step : RedactionStep mayDrop before after) :
    after.depth ≤ before.depth := by
  induction step with
  | strip tree => exact Nat.zero_le _
  | item earlier later step ih =>
    simp only [depth, itemsDepth_append, itemsDepth]
    omega
  | member earlier key later step ih =>
    simp only [depth, membersDepth_append, membersDepth]
    omega
  | drop allowed earlier key value later =>
    simp only [depth, membersDepth_append, membersDepth]
    omega

/-- What shows after a step showed before it, at the same path. -/
theorem RedactionStep.shows {before after leaf : Tree} {path : List Step}
    (step : RedactionStep mayDrop before after) (visible : after.Shows path leaf) :
    before.Shows path leaf := by
  induction step generalizing path with
  | strip tree => exact absurd visible not_shows_stripped
  | @item before after earlier later step ih =>
    obtain ⟨position, item, rest, rfl, found, inner⟩ := shows_list_iff.mp visible
    rcases Nat.lt_trichotomy position earlier.length with left | middle | right
    · rw [List.getElem?_append_left left] at found
      exact .item (by rw [List.getElem?_append_left left, found]) inner
    · subst middle
      rw [List.getElem?_append_right (Nat.le_refl _), Nat.sub_self, List.getElem?_cons_zero]
        at found
      obtain rfl := Option.some.inj found
      have there : (earlier ++ before :: later)[earlier.length]? = some before := by
        rw [List.getElem?_append_right (Nat.le_refl _), Nat.sub_self, List.getElem?_cons_zero]
      exact .item there (ih inner)
    · obtain ⟨offset, rfl⟩ := Nat.exists_eq_add_of_lt right
      have place : earlier.length + offset + 1 - earlier.length = offset + 1 := by omega
      have beyond : earlier.length ≤ earlier.length + offset + 1 := by omega
      rw [List.getElem?_append_right beyond, place, List.getElem?_cons_succ] at found
      refine .item ?_ inner
      rw [List.getElem?_append_right beyond, place, List.getElem?_cons_succ, found]
  | @member before after earlier key later step ih =>
    obtain ⟨other, value, rest, rfl, present, inner⟩ := shows_object_iff.mp visible
    rcases List.mem_append.mp present with first | tail
    · exact .member (List.mem_append_left _ first) inner
    · rcases List.mem_cons.mp tail with here | last
      · obtain ⟨rfl, rfl⟩ := Prod.mk.inj here
        exact .member (List.mem_append_right _ List.mem_cons_self) (ih inner)
      · exact .member (List.mem_append_right _ (List.mem_cons_of_mem _ last)) inner
  | drop allowed earlier key value later =>
    obtain ⟨other, value, rest, rfl, present, inner⟩ := shows_object_iff.mp visible
    rcases List.mem_append.mp present with first | last
    · exact .member (List.mem_append_left _ first) inner
    · exact .member (List.mem_append_right _ (List.mem_cons_of_mem _ last)) inner

namespace Redacted

/-- No step at all. -/
theorem refl (tree : Tree) : Redacted mayDrop tree tree := ReflTransGen.refl

/-- Steps after steps. -/
theorem trans {first second third : Tree} (before : Redacted mayDrop first second)
    (after : Redacted mayDrop second third) : Redacted mayDrop first third :=
  ReflTransGen.trans before after

/-- Any value can be taken out. -/
theorem stripped (tree : Tree) : Redacted mayDrop tree .stripped :=
  ReflTransGen.single (.strip tree)

/-- A redacted tree is no deeper than the tree before. -/
theorem depth_le {before after : Tree} (redacted : Redacted mayDrop before after) :
    after.depth ≤ before.depth := by
  induction redacted with
  | refl => exact Nat.le_refl _
  | tail _ step ih => exact Nat.le_trans step.depth_le ih

/-- What shows in a redacted tree shows in the tree before, at the same path. -/
theorem shows {before after leaf : Tree} {path : List Step}
    (redacted : Redacted mayDrop before after) (visible : after.Shows path leaf) :
    before.Shows path leaf := by
  induction redacted with
  | refl => exact visible
  | tail _ step ih => exact ih (step.shows visible)

/-- Redaction inside one item of a list. -/
theorem item {before after : Tree} (earlier later : List Tree)
    (redacted : Redacted mayDrop before after) :
    Redacted mayDrop (.list (earlier ++ before :: later)) (.list (earlier ++ after :: later)) := by
  induction redacted with
  | refl => exact refl _
  | tail _ step ih => exact ReflTransGen.tail ih (.item earlier later step)

/-- Redaction inside one value of an object. -/
theorem member {before after : Tree} (earlier : List (String × Tree)) (key : String)
    (later : List (String × Tree)) (redacted : Redacted mayDrop before after) :
    Redacted mayDrop (.object (earlier ++ (key, before) :: later))
      (.object (earlier ++ (key, after) :: later)) := by
  induction redacted with
  | refl => exact refl _
  | tail _ step ih => exact ReflTransGen.tail ih (.member earlier key later step)

/-- A list is redacted by redacting its items, here those after some first items. -/
theorem list_append {redact : Tree → Tree} (each : ∀ item, Redacted mayDrop item (redact item))
    (first items : List Tree) :
    Redacted mayDrop (.list (first ++ items)) (.list (first ++ items.map redact)) := by
  induction items generalizing first with
  | nil => exact refl _
  | cons item rest ih =>
    have here := (each item).item first rest
    have there := ih (first ++ [redact item])
    rw [List.append_assoc, List.append_assoc] at there
    exact here.trans there

/-- A list is redacted by redacting its items. -/
theorem list {redact : Tree → Tree} (each : ∀ item, Redacted mayDrop item (redact item))
    (items : List Tree) : Redacted mayDrop (.list items) (.list (items.map redact)) :=
  list_append each [] items

/-- What a rule may make of a value: a redacted value or, where this is allowed, none. -/
def Rule (mayDrop : Prop) (rule : String → Tree → Option Tree) : Prop :=
  ∀ key value, (rule key value).elim mayDrop (Redacted mayDrop value)

/-- What a rule makes of a value is redacted. -/
theorem Rule.redacted {rule : String → Tree → Option Tree} (redacts : Rule mayDrop rule)
    {key : String} {value kept : Tree} (rewritten : rule key value = some kept) :
    Redacted mayDrop value kept := by
  have redacted := redacts key value
  rwa [rewritten] at redacted

/-- One rule after the other redacts if both do. -/
theorem Rule.bind {first second : String → Tree → Option Tree} (before : Rule mayDrop first)
    (after : Rule mayDrop second) :
    Rule mayDrop fun key value => (first key value).bind (second key) := by
  intro key value
  have start := before key value
  change ((first key value).bind (second key)).elim mayDrop (Redacted mayDrop value)
  cases h : first key value with
  | none =>
    rw [h] at start
    exact start
  | some between =>
    rw [h] at start
    have finish := after key between
    rw [Option.bind_some]
    cases h : second key between with
    | none =>
      rw [h] at finish
      exact finish
    | some kept =>
      rw [h] at finish
      exact Redacted.trans start finish

/-- An object is redacted by rewriting its members with a rule that redacts, here those after some
first members. -/
theorem object_append {rule : String → Tree → Option Tree} (redacts : Rule mayDrop rule)
    (first members : List (String × Tree)) :
    Redacted mayDrop (.object (first ++ members))
      (.object (first ++ Members.rewrite rule members)) := by
  induction members generalizing first with
  | nil => exact refl _
  | cons member rest ih =>
    obtain ⟨key, value⟩ := member
    have each := redacts key value
    rw [Members.rewrite_cons]
    cases h : rule key value with
    | none =>
      rw [h] at each
      exact (ReflTransGen.single (.drop each first key value rest)).trans (ih first)
    | some kept =>
      rw [h] at each
      have here := Redacted.member first key rest each
      have there := ih (first ++ [(key, kept)])
      rw [List.append_assoc, List.append_assoc] at there
      exact here.trans there

/-- An object is redacted by rewriting its members with a rule that redacts. -/
theorem object {rule : String → Tree → Option Tree} (redacts : Rule mayDrop rule)
    (members : List (String × Tree)) :
    Redacted mayDrop (.object members) (.object (Members.rewrite rule members)) :=
  object_append redacts [] members

end Redacted

end Redaction.Tree

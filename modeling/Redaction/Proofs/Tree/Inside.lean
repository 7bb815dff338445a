import Redaction.Proofs.Rewriting
import Redaction.Proofs.Tree.Path

/-!
# What lies directly inside a tree

The items of a list and the values of an object lie directly inside it. A property of trees holds of
all of them if each tree has it as soon as those directly inside have it. What is done to the trees
directly inside changes nothing else: the list keeps its length, and every key keeps its place.
-/

namespace Redaction.Tree

/-- Induction on trees: the hypothesis covers the items of a list and the values of an object. -/
@[elab_as_elim]
theorem inductionInside {motive : Tree → Prop}
    (null : motive .null) (bool : ∀ value, motive (.bool value))
    (number : ∀ value, motive (.number value)) (string : ∀ value, motive (.string value))
    (list : ∀ items, (∀ item ∈ items, motive item) → motive (.list items))
    (object : ∀ members, (∀ member ∈ members, motive member.2) → motive (.object members))
    (stripped : motive .stripped) (tree : Tree) : motive tree := by
  refine Tree.rec (motive_1 := motive) (motive_2 := fun items => ∀ item ∈ items, motive item)
    (motive_3 := fun members => ∀ member ∈ members, motive member.2)
    (motive_4 := fun member => motive member.2) null bool number string list object stripped
    ?_ ?_ ?_ ?_ ?_ tree
  · exact List.forall_mem_nil _
  · exact fun _ _ first rest => List.forall_mem_cons.mpr ⟨first, rest⟩
  · exact List.forall_mem_nil _
  · exact fun _ _ first rest => List.forall_mem_cons.mpr ⟨first, rest⟩
  · exact fun _ _ value => value

/-- Whether a tree lies directly inside another one. -/
inductive Holds : Tree → Tree → Prop where
  /-- A list holds its items. -/
  | item {items : List Tree} {item : Tree} (present : item ∈ items) : Holds (.list items) item
  /-- An object holds its values. -/
  | value {members : List (String × Tree)} {key : String} {value : Tree}
      (present : (key, value) ∈ members) : Holds (.object members) value

/-- Induction on trees: the hypothesis covers what lies directly inside a tree. -/
@[elab_as_elim]
theorem inductionHeld {motive : Tree → Prop}
    (step : ∀ tree, (∀ part, tree.Holds part → motive part) → motive tree) (tree : Tree) :
    motive tree := by
  induction tree using inductionInside with
  | list items ih =>
    refine step _ fun part held => ?_
    cases held with
    | item present => exact ih part present
  | object members ih =>
    refine step _ fun part held => ?_
    cases held with
    | value present => exact ih _ present
  | _ => exact step _ nofun

/-- The tree with new items, or with members rewritten by a rule. -/
def inside (item : Tree → Tree) (rule : String → Tree → Option Tree) : Tree → Tree
  | .list items => .list (items.map item)
  | .object members => .object (Members.rewrite rule members)
  | leaf => leaf

variable {item second : Tree → Tree} {rule next : String → Tree → Option Tree} {path : List Step}
  {tree leaf : Tree}

/-- Only what is done to the trees that are there matters. -/
theorem inside_congr (items : ∀ part, tree.Holds part → item part = second part)
    (values : ∀ key part, tree.Holds part → rule key part = next key part) :
    tree.inside item rule = tree.inside second next := by
  cases tree with
  | list parts => exact congrArg Tree.list (List.map_congr_left fun part present =>
      items part (.item present))
  | object members => exact congrArg Tree.object (Members.rewrite_congr fun key part present =>
      values key part (.value present))
  | _ => rfl

/-- If nothing is done to the trees that are there, nothing changes. -/
theorem inside_eq_self (items : ∀ part, tree.Holds part → item part = part)
    (values : ∀ key part, tree.Holds part → rule key part = some part) :
    tree.inside item rule = tree := by
  cases tree with
  | list parts =>
    rw [inside, List.map_congr_left fun part present => items part (.item present), List.map_id']
  | object members =>
    rw [inside, Members.rewrite_eq_self fun key part present => values key part (.value present)]
  | _ => rfl

/-- What is done twice to the trees directly inside may be done at once. -/
theorem inside_inside :
    (tree.inside item rule).inside second next =
      tree.inside (fun part => second (item part)) fun key part =>
        (rule key part).bind (next key) := by
  cases tree with
  | list parts => exact congrArg Tree.list List.map_map
  | object members => exact congrArg Tree.object (Members.rewrite_rewrite rule next members)
  | _ => rfl

/-- What shows in a list with new items shows in the new item at the same position. -/
theorem shows_map_iff {items : List Tree} :
    Shows (.list (items.map item)) path leaf ↔
      ∃ position before rest, path = .index position :: rest ∧ items[position]? = some before ∧
        (item before).Shows rest leaf := by
  simp only [shows_list_iff, List.getElem?_map, Option.map_eq_some_iff]
  constructor
  · rintro ⟨position, _, rest, rfl, ⟨before, found, rfl⟩, shows⟩
    exact ⟨position, before, rest, rfl, found, shows⟩
  · rintro ⟨position, before, rest, rfl, found, shows⟩
    exact ⟨position, _, rest, rfl, ⟨before, found, rfl⟩, shows⟩

/-- What shows in a rewritten object shows in what the rule makes of the value of the same key. -/
theorem shows_rewrite_iff {members : List (String × Tree)} :
    Shows (.object (Members.rewrite rule members)) path leaf ↔
      ∃ key before kept rest, path = .key key :: rest ∧ (key, before) ∈ members ∧
        rule key before = some kept ∧ kept.Shows rest leaf := by
  simp only [shows_object_iff, Members.mem_rewrite]
  constructor
  · rintro ⟨key, kept, rest, rfl, ⟨before, present, rewritten⟩, shows⟩
    exact ⟨key, before, kept, rest, rfl, present, rewritten, shows⟩
  · rintro ⟨key, before, kept, rest, rfl, present, rewritten, shows⟩
    exact ⟨key, kept, rest, rfl, ⟨before, present, rewritten⟩, shows⟩

/-- If more shows in what is done to the trees directly inside, more shows in all. -/
theorem Shows.inside
    (items : ∀ part path, tree.Holds part → (item part).Shows path leaf →
      (second part).Shows path leaf)
    (values : ∀ key part kept path, tree.Holds part → rule key part = some kept →
      kept.Shows path leaf → ∃ other, next key part = some other ∧ other.Shows path leaf)
    (shows : (tree.inside item rule).Shows path leaf) :
    (tree.inside second next).Shows path leaf := by
  cases tree with
  | list parts =>
    obtain ⟨position, part, rest, rfl, found, shows⟩ := shows_map_iff.mp shows
    exact shows_map_iff.mpr ⟨position, part, rest, rfl, found,
      items part rest (.item (List.mem_of_getElem? found)) shows⟩
  | object members =>
    obtain ⟨key, part, kept, rest, rfl, present, rewritten, shows⟩ := shows_rewrite_iff.mp shows
    obtain ⟨other, remains, shows⟩ := values key part kept rest (.value present) rewritten shows
    exact shows_rewrite_iff.mpr ⟨key, part, other, rest, rfl, present, remains, shows⟩
  | _ => exact shows

/-- If what is done to the trees directly inside shows no more than they do, no more shows in
all. -/
theorem shows_of_shows_inside
    (items : ∀ part path, tree.Holds part → (item part).Shows path leaf → part.Shows path leaf)
    (values : ∀ key part kept path, tree.Holds part → rule key part = some kept →
      kept.Shows path leaf → part.Shows path leaf)
    (shows : (tree.inside item rule).Shows path leaf) : tree.Shows path leaf := by
  have same : tree.inside (fun part => part) (fun _ part => some part) = tree :=
    inside_eq_self (fun _ _ => rfl) fun _ _ _ => rfl
  rw [← same]
  exact shows.inside items fun key part kept path held rewritten shows =>
    ⟨part, rfl, values key part kept path held rewritten shows⟩

end Redaction.Tree

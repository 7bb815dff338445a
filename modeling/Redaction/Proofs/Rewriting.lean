import Mathlib.Data.List.Basic
import Mathlib.Data.List.Flatten
import Mathlib.Data.List.Perm.Basic
import Redaction.Members

/-!
# Rewriting an object member by member

A rewriting gives each value a new one or removes it, and looks at the key and the value alone. So
what becomes of one member never depends on the others, and two rewritings in succession are again
a rewriting.
-/

namespace Redaction.Members

variable {α : Type}

/-- The members with a new value for each, or without those that get none. -/
def rewrite (rule : String → α → Option α) (members : List (String × α)) : List (String × α) :=
  members.filterMap fun member => (rule member.1 member.2).map (Prod.mk member.1)

/-- A rewriting goes through the members one by one. -/
@[simp] theorem rewrite_nil (rule : String → α → Option α) : rewrite rule [] = [] := rfl

/-- The first member is rewritten by itself. -/
theorem rewrite_cons (rule : String → α → Option α) (key : String) (value : α)
    (rest : List (String × α)) :
    rewrite rule ((key, value) :: rest) =
      match rule key value with
      | some kept => (key, kept) :: rewrite rule rest
      | none => rewrite rule rest := by
  cases h : rule key value <;> simp [rewrite, h]

/-- Each member of the result comes from a member of the same key. -/
theorem mem_rewrite {rule : String → α → Option α} {members : List (String × α)} {key : String}
    {kept : α} :
    (key, kept) ∈ rewrite rule members ↔
      ∃ value, (key, value) ∈ members ∧ rule key value = some kept := by
  simp only [rewrite, List.mem_filterMap, Option.map_eq_some_iff, Prod.mk.injEq, Prod.exists]
  constructor
  · rintro ⟨other, value, member, result, rewritten, rfl, rfl⟩
    exact ⟨value, member, rewritten⟩
  · rintro ⟨value, member, rewritten⟩
    exact ⟨key, value, member, kept, rewritten, rfl, rfl⟩

/-- Only what a rule does to the members that are there matters. -/
theorem rewrite_congr {rule other : String → α → Option α} {members : List (String × α)}
    (same : ∀ key value, (key, value) ∈ members → rule key value = other key value) :
    rewrite rule members = rewrite other members :=
  List.filterMap_congr fun member present => by rw [same member.1 member.2 present]

/-- A rule that keeps every value keeps the members. -/
theorem rewrite_eq_self {rule : String → α → Option α} {members : List (String × α)}
    (keeps : ∀ key value, (key, value) ∈ members → rule key value = some value) :
    rewrite rule members = members := by
  induction members with
  | nil => rfl
  | cons member rest ih =>
    obtain ⟨key, value⟩ := member
    rw [rewrite_cons, keeps key value List.mem_cons_self]
    exact congrArg _ (ih fun key value later => keeps key value (List.mem_cons_of_mem _ later))

/-- Applying a function to each value is a rewriting. -/
theorem mapValues_eq_rewrite (f : α → α) (members : List (String × α)) :
    mapValues f members = rewrite (fun _ value => some (f value)) members := by
  induction members with
  | nil => rfl
  | cons member rest ih =>
    rw [mapValues, List.map_cons, rewrite_cons, ← ih]
    rfl

/-- Two rewritings in succession are one rewriting. -/
theorem rewrite_rewrite (first second : String → α → Option α) (members : List (String × α)) :
    rewrite second (rewrite first members) =
      rewrite (fun key value => (first key value).bind (second key)) members := by
  induction members with
  | nil => rfl
  | cons member rest ih =>
    obtain ⟨key, value⟩ := member
    rw [rewrite_cons, rewrite_cons]
    cases first key value with
    | none => exact ih
    | some kept => rw [Option.bind_some, rewrite_cons, ih]

/-- The value of a key that is found is a member. -/
theorem mem_of_find? {key : String} {value : α} {members : List (String × α)}
    (found : find? key members = some value) : (key, value) ∈ members := by
  induction members with
  | nil => cases found
  | cons member rest ih =>
    obtain ⟨name, first⟩ := member
    rw [find?] at found
    split at found
    · next here =>
      obtain rfl := Option.some.inj found
      exact here ▸ List.mem_cons_self
    · exact List.mem_cons_of_mem _ (ih found)

/-- What a rewriting makes of the value of a key is found under the key. -/
theorem find?_rewrite {rule : String → α → Option α} {members : List (String × α)} {key : String}
    {value kept : α} (found : find? key members = some value)
    (rewritten : rule key value = some kept) : find? key (rewrite rule members) = some kept := by
  induction members with
  | nil => cases found
  | cons member rest ih =>
    obtain ⟨name, first⟩ := member
    rw [find?] at found
    rw [rewrite_cons]
    by_cases here : name = key
    · subst here
      rw [if_pos rfl] at found
      obtain rfl := Option.some.inj found
      rw [rewritten, find?, if_pos rfl]
    · rw [if_neg here] at found
      cases rule name first with
      | none => exact ih found
      | some other => rw [find?, if_neg here, ih found]

variable {β : Type}

/-- What a function yields for one item is a part of what it yields for all. -/
theorem sublist_flatMap_of_mem {item : α} {list : List α} (present : item ∈ list)
    (f : α → List β) : (f item).Sublist (list.flatMap f) := by
  have part := (List.singleton_sublist.mpr present).flatMap f
  rwa [List.flatMap_singleton] at part

/-- What a function yields for the values of a key. -/
def gather (key : String) (f : α → List β) (members : List (String × α)) : List β :=
  members.flatMap fun member => if member.1 = key then f member.2 else []

/-- Nothing is gathered from no members. -/
@[simp] theorem gather_nil (key : String) (f : α → List β) : gather key f [] = [] := rfl

/-- The first member counts if it has the key. -/
theorem gather_cons (key : String) (f : α → List β) (name : String) (value : α)
    (rest : List (String × α)) :
    gather key f ((name, value) :: rest) =
      (if name = key then f value else []) ++ gather key f rest := List.flatMap_cons

/-- Only what the function yields for the values of the key matters. -/
theorem gather_congr {key : String} {f g : α → List β} {members : List (String × α)}
    (same : ∀ value, (key, value) ∈ members → f value = g value) :
    gather key f members = gather key g members := by
  induction members with
  | nil => rfl
  | cons member rest ih =>
    obtain ⟨name, value⟩ := member
    rw [gather_cons, gather_cons, ih fun value later => same value (List.mem_cons_of_mem _ later)]
    by_cases here : name = key
    · subst here
      rw [same value List.mem_cons_self]
    · rw [if_neg here, if_neg here]

/-- Nothing is gathered if the function yields nothing for the values of the key. -/
theorem gather_eq_nil {key : String} {f : α → List β} {members : List (String × α)}
    (nothing : ∀ value, (key, value) ∈ members → f value = []) : gather key f members = [] := by
  refine List.flatMap_eq_nil_iff.mpr fun member present => ?_
  split
  · next here => exact nothing member.2 (here ▸ present)
  · rfl

/-- What the function yields for one value of the key is a part of what is gathered. -/
theorem sublist_gather {key : String} {value : α} {members : List (String × α)}
    (present : (key, value) ∈ members) (f : α → List β) :
    (f value).Sublist (gather key f members) := by
  have part := sublist_flatMap_of_mem present fun member : String × α =>
    if member.1 = key then f member.2 else []
  rwa [if_pos rfl] at part

/-- A function that yields a part of what another one yields gathers a part. -/
theorem gather_sublist {key : String} {f g : α → List β} (members : List (String × α))
    (part : ∀ value, (f value).Sublist (g value)) :
    (gather key f members).Sublist (gather key g members) := by
  refine .flatMap_right members fun member _ => ?_
  by_cases here : member.1 = key
  · rw [if_pos here, if_pos here]
    exact part member.2
  · rw [if_neg here, if_neg here]

/-- A function that yields the same as another one in another order gathers the same in another
order. -/
theorem gather_perm {key : String} {f g : α → List β} (members : List (String × α))
    (same : ∀ value, (f value).Perm (g value)) :
    (gather key f members).Perm (gather key g members) := by
  refine .flatMap_left members fun member _ => ?_
  by_cases here : member.1 = key
  · rw [if_pos here, if_pos here]
    exact same member.2
  · rw [if_neg here, if_neg here]

/-- A rewriting that leaves the values of the key alone changes nothing in what is gathered. -/
theorem gather_rewrite {key : String} {f : α → List β} {rule : String → α → Option α}
    {members : List (String × α)} (keeps : ∀ value, rule key value = some value) :
    gather key f (rewrite rule members) = gather key f members := by
  induction members with
  | nil => rfl
  | cons member rest ih =>
    obtain ⟨name, value⟩ := member
    rw [rewrite_cons, gather_cons]
    by_cases here : name = key
    · subst here
      rw [keeps value, gather_cons, ih]
    · cases rule name value with
      | none => rw [ih, if_neg here, List.nil_append]
      | some kept => rw [gather_cons, ih, if_neg here, if_neg here]

variable {triples : List (String × α × α)}

/-- A rule that treats the two values of each key in the same way makes the same of two objects. -/
theorem rewrite_eq_of_triples {rule : String → α → Option α}
    (same : ∀ triple ∈ triples, rule triple.1 triple.2.1 = rule triple.1 triple.2.2) :
    rewrite rule (triples.map fun triple => (triple.1, triple.2.1)) =
      rewrite rule (triples.map fun triple => (triple.1, triple.2.2)) := by
  rw [rewrite, rewrite, List.filterMap_map, List.filterMap_map]
  refine List.filterMap_congr fun triple present => ?_
  rw [Function.comp_apply, Function.comp_apply, same triple present]

/-- A function that yields the same for the two values of the key gathers the same from two
objects. -/
theorem gather_eq_of_triples {key : String} {f : α → List β}
    (same : ∀ triple ∈ triples, triple.1 = key → f triple.2.1 = f triple.2.2) :
    gather key f (triples.map fun triple => (triple.1, triple.2.1)) =
      gather key f (triples.map fun triple => (triple.1, triple.2.2)) := by
  rw [gather, gather, List.flatMap_map, List.flatMap_map]
  refine List.flatMap_congr fun triple present => ?_
  by_cases here : triple.1 = key
  · rw [if_pos here, if_pos here, same triple present here]
  · rw [if_neg here, if_neg here]

end Redaction.Members

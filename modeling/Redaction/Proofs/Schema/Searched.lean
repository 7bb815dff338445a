import Mathlib.Logic.Function.Iterate
import Redaction.Proofs.Schema.Naming

/-!
# How long the search through the types takes, and what it finds

The search takes one pending name in each step. A type is visited once, and only then its references
become pending, so that there are no more steps than references, and one for the type at which the
search begins. In the end the search has told exactly of the types that can be reached along
references: the names of all their fields, whether one of these is marked as secret, and whether one
refers to a name of which there is no type.
-/

namespace Redaction.Schema

open Relation

/-- How far a search has got. -/
structure Search where
  /-- The types that have not been visited. -/
  unvisited : List Message
  /-- The names that are still to be looked at. -/
  pending : List String
  /-- What has been found. -/
  reach : Reach

/-- How many steps a search may still take: one for each pending name, and one for each reference
that may become pending. -/
def Search.remaining (search : Search) : Nat :=
  search.pending.length + (search.unvisited.flatMap Message.references).length

namespace Registry

variable {registry : Registry} {policy : Policy} {root type : Message} {search : Search}

/-- The search before its first step. -/
def searchFor (registry : Registry) (name : String) : Search :=
  ⟨registry.messages, [name], .nothing⟩

/-- The search after the first pending name has been looked at. -/
def next (registry : Registry) (search : Search) : Search :=
  match search.pending with
  | [] => search
  | name :: rest =>
    match search.unvisited.find? fun message => message.name == name with
    | some message =>
      ⟨search.unvisited.erase message, message.references ++ rest, search.reach.visit message⟩
    | none =>
      ⟨search.unvisited, rest,
        if (registry.find? name).isSome then search.reach else search.reach.miss⟩

/-- Each step uses up one of the remaining steps, also if it visits a type and its references become
pending. -/
theorem remaining_next (busy : search.pending ≠ []) :
    (registry.next search).remaining + 1 = search.remaining := by
  obtain ⟨unvisited, pending, reach⟩ := search
  obtain ⟨name, rest, rfl⟩ := List.exists_cons_of_ne_nil busy
  simp only [next]
  cases found : unvisited.find? fun message => message.name == name with
  | none => simp only [Search.remaining, List.length_cons, Nat.add_right_comm]
  | some message =>
    have taken : unvisited.Perm (message :: unvisited.erase message) :=
      List.perm_cons_erase (List.mem_of_find?_eq_some found)
    have counted := (taken.flatMap_right Message.references).length_eq
    simp only [List.flatMap_cons, List.length_append] at counted
    simp only [Search.remaining, List.length_append, List.length_cons, counted]
    omega

/-- A step does not change what the search will have found in the end. -/
theorem reachFrom_next :
    registry.reachFrom (registry.next search).unvisited (registry.next search).pending
        (registry.next search).reach =
      registry.reachFrom search.unvisited search.pending search.reach := by
  obtain ⟨unvisited, pending, reach⟩ := search
  cases pending with
  | nil => rfl
  | cons name rest =>
    simp only [next]
    rw [reachFrom.eq_2]
    cases found : unvisited.find? fun message => message.name == name <;> rfl

/-- The search ends, at the latest when no steps remain, and has then found what it is to find. -/
theorem exists_iterate_next (search : Search) :
    ∃ steps ≤ search.remaining, (registry.next^[steps] search).pending = [] ∧
      (registry.next^[steps] search).reach =
        registry.reachFrom search.unvisited search.pending search.reach := by
  induction left : search.remaining generalizing search with
  | zero =>
    have idle : search.pending = [] := by
      rw [Search.remaining, Nat.add_eq_zero_iff, List.length_eq_zero_iff] at left
      exact left.1
    refine ⟨0, Nat.le_refl 0, idle, ?_⟩
    rw [idle, reachFrom]
    rfl
  | succ left ih =>
    by_cases idle : search.pending = []
    · refine ⟨0, Nat.zero_le _, idle, ?_⟩
      rw [idle, reachFrom]
      rfl
    · have fewer : (registry.next search).remaining + 1 = search.remaining := remaining_next idle
      obtain ⟨steps, few, done, found⟩ := ih (registry.next search) (by omega)
      refine ⟨steps + 1, Nat.succ_le_succ few, ?_, ?_⟩
      · rw [Function.iterate_succ_apply]
        exact done
      · rw [Function.iterate_succ_apply, found, reachFrom_next]

/-- A type refers to another one if a field of it does. -/
def RefersTo (registry : Registry) (type next : Message) : Prop :=
  ∃ name ∈ type.references, registry.find? name = some next

/-- The types of the names to which the name of a type leads are the types to which the type leads
along references. -/
theorem exists_leadsTo_iff (member : root ∈ registry.messages) :
    (∃ target, registry.LeadsTo root.name target ∧ registry.find? target = some type) ↔
      ReflTransGen registry.RefersTo root type := by
  constructor
  · rintro ⟨target, path, found⟩
    induction path generalizing type with
    | refl =>
      rw [find?_eq_some_iff.mpr ⟨member, rfl⟩] at found
      rw [Option.some.inj found]
    | tail _ step ih =>
      obtain ⟨source, resolved, referred⟩ := step
      exact (ih resolved).tail ⟨_, referred, found⟩
  · intro path
    induction path with
    | refl => exact ⟨root.name, .refl, find?_eq_some_iff.mpr ⟨member, rfl⟩⟩
    | tail _ step ih =>
      obtain ⟨target, steps, resolved⟩ := ih
      obtain ⟨name, referred, found⟩ := step
      exact ⟨name, steps.tail ⟨_, resolved, referred⟩, found⟩

/-- The search from a type tells what the fields of the types exhibit that can be reached along
references, and whether one of the references means no type. -/
theorem tells_reach_iff_of_mem (member : root ∈ registry.messages) {finding : Finding} :
    (registry.reach root.name).Tells finding ↔
      ∃ type, ReflTransGen registry.RefersTo root type ∧
        (type.Exhibits finding ∨
          finding = .unresolved ∧ ∃ name ∈ type.references, name ∉ registry.names) := by
  rw [tells_reach_iff]
  constructor
  · rintro ⟨target, path, exhibits⟩
    cases found : registry.find? target with
    | some type =>
      rw [Exhibits, found] at exhibits
      exact ⟨type, (exists_leadsTo_iff member).mp ⟨target, path, found⟩, .inl exhibits⟩
    | none =>
      rw [Exhibits, found] at exhibits
      cases path with
      | refl =>
        rw [find?_eq_some_iff.mpr ⟨member, rfl⟩] at found
        cases found
      | tail earlier step =>
        obtain ⟨source, resolved, referred⟩ := step
        exact ⟨source, (exists_leadsTo_iff member).mp ⟨_, earlier, resolved⟩,
          .inr ⟨exhibits, target, referred, find?_eq_none_iff.mp found⟩⟩
  · rintro ⟨type, path, exhibits⟩
    obtain ⟨target, steps, found⟩ := (exists_leadsTo_iff member).mpr path
    rcases exhibits with declared | ⟨rfl, name, referred, missing⟩
    · exact ⟨target, steps, by rw [Exhibits, found]; exact declared⟩
    · refine ⟨name, steps.tail ⟨type, found, referred⟩, ?_⟩
      rw [Exhibits, find?_eq_none_iff.mpr missing]

/-- A type is harmless exactly if no field of the types that can be reached along references is
secret or refers to a name of which there is no type. -/
theorem harmless_iff_of_mem (member : root ∈ registry.messages) :
    registry.Harmless policy root.name ↔
      ∀ type, ReflTransGen registry.RefersTo root type →
        (∀ field ∈ type.fields, policy.isSensitive field = false) ∧
          ∀ name ∈ type.references, name ∈ registry.names := by
  constructor
  · intro harmless type path
    obtain ⟨target, steps, found⟩ := (exists_leadsTo_iff member).mpr path
    obtain ⟨other, same, visible⟩ := harmless target steps
    obtain rfl := Option.some.inj (found.symm.trans same)
    refine ⟨visible, fun name referred => ?_⟩
    obtain ⟨next, resolved, _⟩ := harmless name (steps.tail ⟨type, found, referred⟩)
    obtain ⟨declared, rfl⟩ := find?_eq_some_iff.mp resolved
    exact List.mem_map_of_mem declared
  · intro clear target path
    cases found : registry.find? target with
    | some type =>
      exact ⟨type, rfl, (clear type ((exists_leadsTo_iff member).mp ⟨target, path, found⟩)).1⟩
    | none =>
      cases path with
      | refl =>
        rw [find?_eq_some_iff.mpr ⟨member, rfl⟩] at found
        cases found
      | tail earlier step =>
        obtain ⟨source, resolved, referred⟩ := step
        have reached := (exists_leadsTo_iff member).mp ⟨_, earlier, resolved⟩
        exact absurd ((clear source reached).2 target referred) (find?_eq_none_iff.mp found)

/-- The search through a registry ends within as many steps as there are references, and one more.
What it finds from a type on are exactly the names and secret marks of the fields of the types that
can be reached along references, and whether such a reference means no type. Hence a type may hold
nothing secret exactly if it is known, no field of a type that can be reached is secret and each
reference there means a type. If no name keeps a dot, these are the types that a walk enters. -/
theorem search_exact (registry : Registry) :
    (∀ root ∈ registry.messages, let reach := registry.reach root.name
      (∃ steps ≤ (registry.messages.flatMap Message.references).length + 1,
        (registry.next^[steps] (registry.searchFor root.name)).pending = [] ∧
          (registry.next^[steps] (registry.searchFor root.name)).reach = reach) ∧
      (∀ name, name ∈ reach.names ↔ ∃ type, ReflTransGen registry.RefersTo root type ∧
        ∃ field ∈ type.fields, field.name = name) ∧
      (reach.marked = true ↔ ∃ type, ReflTransGen registry.RefersTo root type ∧
        ∃ field ∈ type.fields, field.sensitive = true) ∧
      (reach.unresolved = true ↔ ∃ type, ReflTransGen registry.RefersTo root type ∧
        ∃ name ∈ type.references, name ∉ registry.names)) ∧
    (∀ policy reference, registry.mayContainSensitive policy reference = false ↔
      ∃ root, registry.get? reference = some root ∧
        ∀ type, ReflTransGen registry.RefersTo root type →
          (∀ field ∈ type.fields, policy.isSensitive field = false) ∧
            ∀ name ∈ type.references, name ∈ registry.names) ∧
    (registry.Undotted → ∀ policy reference,
      registry.mayContainSensitive policy reference = false ↔
        ∃ root, registry.get? reference = some root ∧
          ∀ type, ReflTransGen registry.Follows root type → registry.Spotless policy type) := by
  refine ⟨fun root member => ?_, fun policy reference => ?_, fun undotted policy reference => ?_⟩
  · intro reach
    have tells (finding : Finding) :
        reach.Tells finding ↔ ∃ type, ReflTransGen registry.RefersTo root type ∧
          (type.Exhibits finding ∨
            finding = .unresolved ∧ ∃ name ∈ type.references, name ∉ registry.names) :=
      tells_reach_iff_of_mem member
    have ends := registry.exists_iterate_next (registry.searchFor root.name)
    rw [Search.remaining, searchFor, List.length_singleton, Nat.add_comm] at ends
    refine ⟨ends, fun name => (tells (.name name)).trans ?_, (tells .marked).trans ?_,
      (tells .unresolved).trans ?_⟩
    · simp only [Message.Exhibits, reduceCtorEq, false_and, or_false]
    · simp only [Message.Exhibits, reduceCtorEq, false_and, or_false]
    · simp only [Message.Exhibits, true_and, false_or]
  · rw [mayContainSensitive_eq_false_iff]
    refine exists_congr fun root => and_congr_right fun resolved => ?_
    exact harmless_iff_of_mem (mem_of_get?_eq_some resolved)
  · rw [mayContainSensitive_eq_false_iff]
    refine exists_congr fun root => and_congr_right fun resolved => ?_
    exact harmless_iff_spotless undotted (mem_of_get?_eq_some resolved)

/-- A person has friends, and is found by mail or in a room. -/
def person : Message :=
  .ofDeclarations ".club.Person"
    [.field (.repeated (.message "friends" ".club.Person")),
      .oneof "contact" [.scalar "mail", .message "room" "club.Room"]]

/-- A room has guests. -/
def room : Message :=
  .ofDeclarations "club.Room" [.field (.map (.message "guests" ".club.Person"))]

/-- A visit has a host, of whose type nothing is known. -/
def visit : Message :=
  .ofDeclarations "club.Visit"
    [.field (.message "guest" "club.Person"), .field (.message "host" "club.Host")]

/-- The registry of the club. -/
def club : Registry := ofList [person, room, visit]

/-- Rooms and persons refer to none but each other. -/
theorem eq_of_refersTo_room (path : ReflTransGen club.RefersTo room type) :
    type = room ∨ type = person := by
  induction path with
  | refl => exact .inl rfl
  | tail _ step ih =>
    obtain ⟨name, referred, found⟩ := step
    have rooms : club.find? "club.Room" = some room := by decide
    have persons : club.find? "club.Person" = some person := by decide
    rcases ih with rfl | rfl
    · obtain rfl := List.mem_singleton.mp (show name ∈ ["club.Person"] from referred)
      exact .inr (Option.some.inj (found.symm.trans persons))
    · rcases List.mem_pair.mp (show name ∈ ["club.Person", "club.Room"] from referred) with
        rfl | rfl
      · exact .inr (Option.some.inj (found.symm.trans persons))
      · exact .inl (Option.some.inj (found.symm.trans rooms))

/-- Persons and rooms lead to each other and hold nothing secret, unless mail is. The search from a
room comes to the mail of the guests, and misses nothing but the host of a visit. -/
theorem search_exact_club :
    club.mayContainSensitive ⟨none, .empty⟩ ".club.Room" = false ∧
      club.mayContainSensitive ⟨some "ail", .empty⟩ ".club.Room" = true ∧
      club.mayContainSensitive ⟨none, .empty⟩ "club.Visit" = true ∧
      "mail" ∈ (club.reach "club.Room").names ∧ (club.reach "club.Visit").unresolved = true := by
  obtain ⟨exact, clear, walked⟩ := search_exact club
  have known : club.get? ".club.Room" = some room := by decide
  have step : club.RefersTo room person := ⟨"club.Person", by decide, by decide⟩
  obtain ⟨_, names, _, _⟩ := exact room (by decide)
  obtain ⟨_, _, _, missing⟩ := exact visit (by decide)
  refine ⟨(clear _ _).mpr ⟨room, known, fun type path => ?_⟩, ?_, ?_, ?_, ?_⟩
  · rcases eq_of_refersTo_room path with rfl | rfl <;> decide
  · refine eq_true_of_ne_false fun harmless => ?_
    obtain ⟨root, same, visible⟩ := (clear _ _).mp harmless
    obtain rfl := Option.some.inj (known.symm.trans same)
    exact absurd (visible person (.single step)).1 (by decide)
  · refine eq_true_of_ne_false fun harmless => ?_
    have known : club.get? "club.Visit" = some visit := by decide
    obtain ⟨root, same, spotless⟩ := (walked (by decide) _ _).mp harmless
    obtain rfl := Option.some.inj (known.symm.trans same)
    have host : Field.message "host" "club.Host" ∈ visit.fields := by decide
    have resolved := (spotless visit .refl _ host).2 "club.Host" rfl
    exact absurd resolved (by decide)
  · exact (names "mail").mpr ⟨person, .single step, by decide⟩
  · exact missing.mpr ⟨visit, .refl, by decide⟩

end Registry

end Redaction.Schema

import Mathlib.Logic.Relation
import Redaction.Proofs.Schema.WellNamed
import Redaction.Walk.Clearance

/-!
# What a message type leads to, as a relation

A type name leads to the names to which the fields of its type refer. The search through the types
finds exactly what there is along this relation: secret marks, missing types and field names. Hence
a type is cleared exactly if no secret field and no missing type can be reached from it.
-/

namespace Redaction.Schema

open Relation

/-- One thing that a search may find. -/
inductive Finding where
  /-- A field that is marked as secret. -/
  | marked
  /-- A missing type. -/
  | unresolved
  /-- A field of some name. -/
  | name (name : String)
deriving DecidableEq, Repr

/-- Whether a search has found something. -/
def Reach.Tells (reach : Reach) : Finding → Prop
  | .marked => reach.marked = true
  | .unresolved => reach.unresolved = true
  | .name name => name ∈ reach.names

/-- Whether something is found in the fields of a type. -/
def Message.Exhibits (message : Message) : Finding → Prop
  | .marked => ∃ field ∈ message.fields, field.sensitive = true
  | .unresolved => False
  | .name name => ∃ field ∈ message.fields, field.name = name

namespace Reach

/-- At first nothing has been found. -/
theorem not_tells_nothing (finding : Finding) : ¬ nothing.Tells finding := by
  cases finding <;> simp [Tells, nothing]

/-- A visited type adds what its fields exhibit. -/
theorem tells_visit_iff {reach : Reach} {message : Message} {finding : Finding} :
    (reach.visit message).Tells finding ↔ reach.Tells finding ∨ message.Exhibits finding := by
  cases finding with
  | marked => simp [Tells, visit, Message.Exhibits]
  | unresolved => simp [Tells, visit, Message.Exhibits]
  | name name =>
    simp only [Tells, visit, Message.Exhibits, List.mem_append, List.mem_map]
    exact or_comm

/-- A missing type adds that it is missing. -/
theorem tells_miss_iff {reach : Reach} {finding : Finding} :
    reach.miss.Tells finding ↔ reach.Tells finding ∨ finding = .unresolved := by
  cases finding <;> simp [Tells, miss]

end Reach

namespace Registry

variable {registry : Registry} {policy : Policy}

/-- The type of a name is the only one of this name. -/
theorem find?_eq_some_iff {name : String} {message : Message} :
    registry.find? name = some message ↔ message ∈ registry.messages ∧ message.name = name :=
  find?_name_eq_some_iff registry.distinct

/-- A name of which there is no type is a name of no type. -/
theorem find?_eq_none_iff {name : String} : registry.find? name = none ↔ name ∉ registry.names := by
  rw [find?, find?_name_eq_none_iff, names, List.mem_map]
  simp only [not_exists, not_and]

/-- A name leads to those to which the fields of its type refer. -/
def Leads (registry : Registry) (source target : String) : Prop :=
  ∃ message, registry.find? source = some message ∧ target ∈ message.references

/-- A name leads to another one by some steps. -/
def LeadsTo (registry : Registry) : String → String → Prop := ReflTransGen registry.Leads

/-- What is found at a name: that its type is missing, or what the fields of its type exhibit. -/
def Exhibits (registry : Registry) (name : String) (finding : Finding) : Prop :=
  match registry.find? name with
  | some message => message.Exhibits finding
  | none => finding = .unresolved

/-- A type that is still unvisited under a name is the type of this name. -/
theorem find?_of_unvisited {unvisited : List Message} {name : String} {message : Message}
    (known : ∀ message ∈ unvisited, message ∈ registry.messages)
    (found : unvisited.find? (fun message => message.name == name) = some message) :
    registry.find? name = some message := by
  have named : message.name = name := by simpa using List.find?_some found
  exact find?_eq_some_iff.mpr ⟨known message (List.mem_of_find?_eq_some found), named⟩

/-- The search finds only what was found before and what the pending names lead to. -/
theorem exhibits_of_tells_reachFrom (unvisited : List Message) (pending : List String)
    (reach : Reach) (known : ∀ message ∈ unvisited, message ∈ registry.messages)
    {finding : Finding} (tells : (registry.reachFrom unvisited pending reach).Tells finding) :
    reach.Tells finding ∨
      ∃ name ∈ pending, ∃ target, registry.LeadsTo name target ∧
        registry.Exhibits target finding := by
  fun_induction reachFrom registry unvisited pending reach with
  | case1 unvisited reach => exact .inl tells
  | case2 unvisited reach name rest message found ih =>
    have resolved := find?_of_unvisited known found
    have fewer : ∀ other ∈ unvisited.erase message, other ∈ registry.messages :=
      fun other member => known other (List.mem_of_mem_erase member)
    rcases ih fewer tells with visited | ⟨next, member, target, path, exhibits⟩
    · rcases Reach.tells_visit_iff.mp visited with before | here
      · exact .inl before
      · exact .inr ⟨name, List.mem_cons_self, name, .refl, by rw [Exhibits, resolved]; exact here⟩
    · rcases List.mem_append.mp member with referred | later
      · exact .inr ⟨name, List.mem_cons_self, target,
          ReflTransGen.head ⟨message, resolved, referred⟩ path, exhibits⟩
      · exact .inr ⟨next, List.mem_cons_of_mem _ later, target, path, exhibits⟩
  | case3 unvisited reach name rest missing ih =>
    rcases ih known tells with after | ⟨next, member, target, path, exhibits⟩
    · split at after
      · exact .inl after
      · next lost =>
        rcases Reach.tells_miss_iff.mp after with before | rfl
        · exact .inl before
        · have none := Option.not_isSome_iff_eq_none.mp lost
          exact .inr ⟨name, List.mem_cons_self, name, .refl, by rw [Exhibits, none]⟩
    · exact .inr ⟨next, List.mem_cons_of_mem _ member, target, path, exhibits⟩

/-- A stage of the search. Where a seen name leads has been seen or is pending, and what is found at
it has been told; the types that are no longer unvisited have been seen. -/
structure Stage (registry : Registry) (seen : String → Prop) (unvisited : List Message)
    (pending : List String) (reach : Reach) : Prop where
  /-- Where a seen name leads. -/
  leads : ∀ name, seen name → ∀ next, registry.Leads name next → seen next ∨ next ∈ pending
  /-- What is found at a seen name. -/
  tells : ∀ name, seen name → ∀ finding, registry.Exhibits name finding → reach.Tells finding
  /-- Which types have been seen. -/
  visited : ∀ message ∈ registry.messages, message ∉ unvisited → seen message.name

/-- The next stage after the first pending name has been looked at. -/
theorem Stage.next {seen : String → Prop} {unvisited remaining : List Message} {name : String}
    {rest added : List String} {reach larger : Reach}
    (stage : registry.Stage seen unvisited (name :: rest) reach)
    (grows : ∀ finding, reach.Tells finding → larger.Tells finding)
    (exhibits : ∀ finding, registry.Exhibits name finding → larger.Tells finding)
    (leads : ∀ next, registry.Leads name next → next ∈ added)
    (visited : ∀ message ∈ registry.messages, message ∉ remaining →
      message ∉ unvisited ∨ message.name = name) :
    registry.Stage (fun other => seen other ∨ other = name) remaining (added ++ rest) larger := by
  refine ⟨?_, ?_, ?_⟩
  · rintro source (before | rfl) next step
    · rcases stage.leads source before next step with known | waiting
      · exact .inl (.inl known)
      · rcases List.mem_cons.mp waiting with rfl | later
        · exact .inl (.inr rfl)
        · exact .inr (List.mem_append_right _ later)
    · exact .inr (List.mem_append_left _ (leads next step))
  · rintro source (before | rfl) finding found
    · exact grows finding (stage.tells source before finding found)
    · exact exhibits finding found
  · intro message member gone
    rcases visited message member gone with before | named
    · exact .inl (stage.visited message member before)
    · exact .inr named

/-- The next stage after a type has been visited. -/
theorem Stage.visit {seen : String → Prop} {unvisited : List Message} {name : String}
    {rest : List String} {reach : Reach} {message : Message}
    (stage : registry.Stage seen unvisited (name :: rest) reach)
    (resolved : registry.find? name = some message) :
    registry.Stage (fun other => seen other ∨ other = name) (unvisited.erase message)
      (message.references ++ rest) (reach.visit message) := by
  refine stage.next (fun _ before => Reach.tells_visit_iff.mpr (.inl before)) ?_ ?_ ?_
  · intro finding here
    rw [Exhibits, resolved] at here
    exact Reach.tells_visit_iff.mpr (.inr here)
  · rintro next ⟨other, same, referred⟩
    rw [resolved] at same
    exact Option.some.inj same ▸ referred
  · intro other _ gone
    by_cases same : other = message
    · exact .inr (same ▸ (find?_eq_some_iff.mp resolved).2)
    · exact .inl fun still => gone ((List.mem_erase_of_ne same).mpr still)

/-- The next stage after a name without a type has been met. -/
theorem Stage.miss {seen : String → Prop} {unvisited : List Message} {name : String}
    {rest : List String} {reach : Reach}
    (stage : registry.Stage seen unvisited (name :: rest) reach)
    (missing : registry.find? name = none) :
    registry.Stage (fun other => seen other ∨ other = name) unvisited rest reach.miss := by
  have leads : ∀ next, registry.Leads name next → next ∈ ([] : List String) := by
    rintro next ⟨other, same, _⟩
    cases missing.symm.trans same
  refine stage.next (fun _ before => Reach.tells_miss_iff.mpr (.inl before)) ?_ leads
    fun _ _ gone => .inl gone
  intro finding here
  rw [Exhibits, missing] at here
  exact Reach.tells_miss_iff.mpr (.inr here)

/-- A name whose type exists and is no longer unvisited has been seen. -/
theorem Stage.seen_of_visited {seen : String → Prop} {unvisited : List Message}
    {pending : List String} {reach : Reach} {name : String} {message : Message}
    (stage : registry.Stage seen unvisited pending reach)
    (resolved : registry.find? name = some message)
    (visited : unvisited.find? (fun message => message.name == name) = none) : seen name := by
  obtain ⟨member, rfl⟩ := find?_eq_some_iff.mp resolved
  refine stage.visited message member fun still => ?_
  exact List.find?_eq_none.mp visited message still (beq_iff_eq.mpr rfl)

/-- The next stage after a name that had been seen before. -/
theorem Stage.skip {seen : String → Prop} {unvisited : List Message} {name : String}
    {rest : List String} {reach : Reach}
    (stage : registry.Stage seen unvisited (name :: rest) reach) (before : seen name) :
    registry.Stage seen unvisited rest reach := by
  refine ⟨fun source known next step => ?_, stage.tells, stage.visited⟩
  rcases stage.leads source known next step with already | waiting
  · exact .inl already
  · rcases List.mem_cons.mp waiting with rfl | later
    · exact .inl before
    · exact .inr later

/-- The end of the search: names that include all that were seen or pending and everything to which
they lead, with what is found at them told. -/
structure Ends (registry : Registry) (seen : String → Prop) (pending : List String)
    (result : Reach) (final : String → Prop) : Prop where
  /-- Names that were seen. -/
  seen : ∀ name, seen name → final name
  /-- Names that were pending. -/
  pending : ∀ name ∈ pending, final name
  /-- Where these names lead. -/
  closed : ∀ name, final name → ∀ next, registry.Leads name next → final next
  /-- What is found at these names. -/
  tells : ∀ name, final name → ∀ finding, registry.Exhibits name finding → result.Tells finding

/-- The end after a name has been looked at is the end before, too. -/
theorem Ends.of_next {seen final : String → Prop} {name : String} (added : List String)
    {rest : List String} {result : Reach}
    (ends : registry.Ends (fun other => seen other ∨ other = name) (added ++ rest) result final) :
    registry.Ends seen (name :: rest) result final where
  seen other before := ends.seen other (.inl before)
  pending := List.forall_mem_cons.mpr ⟨ends.seen name (.inr rfl), fun other later =>
    ends.pending other (List.mem_append_right added later)⟩
  closed := ends.closed
  tells := ends.tells

/-- From any stage on, the search comes to its end. -/
theorem exists_ends_of_stage {seen : String → Prop} (unvisited : List Message)
    (pending : List String) (reach : Reach)
    (known : ∀ message ∈ unvisited, message ∈ registry.messages)
    (stage : registry.Stage seen unvisited pending reach) :
    ∃ final, registry.Ends seen pending (registry.reachFrom unvisited pending reach) final := by
  fun_induction reachFrom registry unvisited pending reach generalizing seen with
  | case1 unvisited reach =>
    refine ⟨seen, fun _ before => before, by simp, fun name before next step => ?_, stage.tells⟩
    exact (stage.leads name before next step).resolve_right List.not_mem_nil
  | case2 unvisited reach name rest message found ih =>
    have fewer : ∀ other ∈ unvisited.erase message, other ∈ registry.messages :=
      fun other member => known other (List.mem_of_mem_erase member)
    obtain ⟨final, ends⟩ := ih fewer (stage.visit (find?_of_unvisited known found))
    exact ⟨final, ends.of_next message.references⟩
  | case3 unvisited reach name rest missing ih =>
    cases resolved : registry.find? name with
    | some message =>
      have before := stage.seen_of_visited resolved missing
      rw [resolved, Option.isSome_some, dif_pos rfl] at ih
      obtain ⟨final, ends⟩ := ih known (stage.skip before)
      rw [Option.isSome_some, if_pos rfl]
      exact ⟨final, ends.seen, List.forall_mem_cons.mpr ⟨ends.seen name before, ends.pending⟩,
        ends.closed, ends.tells⟩
    | none =>
      rw [resolved, Option.isSome_none, dif_neg Bool.false_ne_true] at ih
      obtain ⟨final, ends⟩ := ih known (stage.miss resolved)
      rw [Option.isSome_none, if_neg Bool.false_ne_true]
      exact ⟨final, ends.of_next []⟩

/-- The search from a type finds exactly what there is along the relation. -/
theorem tells_reach_iff {name : String} {finding : Finding} :
    (registry.reach name).Tells finding ↔
      ∃ target, registry.LeadsTo name target ∧ registry.Exhibits target finding := by
  constructor
  · intro tells
    rcases exhibits_of_tells_reachFrom registry.messages [name] .nothing (fun _ member => member)
      tells with before | ⟨start, member, target, path, exhibits⟩
    · exact absurd before (Reach.not_tells_nothing finding)
    · rw [List.mem_singleton.mp member] at path
      exact ⟨target, path, exhibits⟩
  · rintro ⟨target, path, exhibits⟩
    have first : registry.Stage (fun _ => False) registry.messages [name] .nothing :=
      ⟨fun _ impossible => impossible.elim, fun _ impossible => impossible.elim,
        fun message member gone => gone member⟩
    obtain ⟨final, ends⟩ :=
      exists_ends_of_stage registry.messages [name] .nothing (fun _ member => member) first
    have reached : ∀ other, registry.LeadsTo name other → final other := by
      intro other steps
      induction steps with
      | refl => exact ends.pending name (List.mem_singleton.mpr rfl)
      | tail _ step ih => exact ends.closed _ ih _ step
    exact ends.tells target (reached target path) finding exhibits

/-- If every reference means a type, the search from a type misses none. -/
theorem unresolved_eq_false_of_resolves
    (resolves : ∀ message ∈ registry.messages, ∀ field ∈ message.fields,
      ∀ reference ∈ field.reference?, (registry.get? reference).isSome)
    {message : Message} (member : message ∈ registry.messages) :
    (registry.reach message.name).unresolved = false := by
  have known : ∀ target, registry.LeadsTo message.name target →
      (registry.find? target).isSome := by
    intro target path
    cases path with
    | refl => exact Option.isSome_iff_exists.mpr ⟨message, find?_eq_some_iff.mpr ⟨member, rfl⟩⟩
    | tail _ step =>
      obtain ⟨source, found, referred⟩ := step
      obtain ⟨field, declared, refers⟩ := List.mem_filterMap.mp referred
      obtain ⟨reference, written, rfl⟩ := Option.map_eq_some_iff.mp refers
      exact resolves source (find?_eq_some_iff.mp found).1 field declared reference written
  refine Bool.eq_false_iff.mpr fun tells => ?_
  have found : (registry.reach message.name).Tells .unresolved := tells
  obtain ⟨target, path, exhibits⟩ := tells_reach_iff.mp found
  obtain ⟨other, resolved⟩ := Option.isSome_iff_exists.mp (known target path)
  rw [Exhibits, resolved] at exhibits
  exact exhibits

/-- Whether no field is secret at any name to which a name leads, and no type is missing there. -/
def Harmless (registry : Registry) (policy : Policy) (name : String) : Prop :=
  ∀ target, registry.LeadsTo name target → ∃ message, registry.find? target = some message ∧
    ∀ field ∈ message.fields, policy.isSensitive field = false

/-- Names are harmless if they lead to none but each other and no field is secret at them. -/
theorem harmless_of_closed {names : List String}
    (closed : ∀ name ∈ names, ∃ message, registry.find? name = some message ∧
      (∀ field ∈ message.fields, policy.isSensitive field = false) ∧
      ∀ next ∈ message.references, next ∈ names) {name : String} (member : name ∈ names) :
    registry.Harmless policy name := by
  intro target path
  have inside : target ∈ names := by
    induction path with
    | refl => exact member
    | tail _ step ih =>
      obtain ⟨message, resolved, _, stays⟩ := closed _ ih
      obtain ⟨other, same, referred⟩ := step
      obtain rfl := Option.some.inj (resolved.symm.trans same)
      exact stays _ referred
  obtain ⟨message, resolved, visible, _⟩ := closed target inside
  exact ⟨message, resolved, visible⟩

/-- A name is harmless exactly if the search tells of no mark, no missing type and no name that
makes a field secret. -/
theorem harmless_iff {name : String} :
    registry.Harmless policy name ↔
      ¬ (registry.reach name).Tells .marked ∧ ¬ (registry.reach name).Tells .unresolved ∧
        ∀ field, (registry.reach name).Tells (.name field) → policy.matchesName field = false := by
  simp only [tells_reach_iff]
  constructor
  · intro harmless
    refine ⟨?_, ?_, ?_⟩
    · rintro ⟨target, path, exhibits⟩
      obtain ⟨message, resolved, visible⟩ := harmless target path
      rw [Exhibits, resolved] at exhibits
      obtain ⟨field, member, marked⟩ := exhibits
      have clear := visible field member
      rw [Policy.isSensitive, marked, Bool.true_or] at clear
      cases clear
    · rintro ⟨target, path, exhibits⟩
      obtain ⟨message, resolved, _⟩ := harmless target path
      rw [Exhibits, resolved] at exhibits
      exact exhibits
    · rintro name ⟨target, path, exhibits⟩
      obtain ⟨message, resolved, visible⟩ := harmless target path
      rw [Exhibits, resolved] at exhibits
      obtain ⟨field, member, rfl⟩ := exhibits
      exact (Bool.or_eq_false_iff.mp (visible field member)).2
  · rintro ⟨unmarked, whole, unmatched⟩ target path
    cases resolved : registry.find? target with
    | none => exact absurd ⟨target, path, by rw [Exhibits, resolved]⟩ whole
    | some message =>
      refine ⟨message, rfl, fun field member => Bool.or_eq_false_iff.mpr ⟨?_, ?_⟩⟩
      · refine Bool.eq_false_iff.mpr fun marked => unmarked ⟨target, path, ?_⟩
        rw [Exhibits, resolved]
        exact ⟨field, member, marked⟩
      · refine unmatched field.name ⟨target, path, ?_⟩
        rw [Exhibits, resolved]
        exact ⟨field, member, rfl⟩

/-- A reference may lead to something secret unless it means a harmless type. -/
theorem mayContainSensitive_eq_false_iff {reference : String} :
    registry.mayContainSensitive policy reference = false ↔
      ∃ message, registry.get? reference = some message ∧
        registry.Harmless policy message.name := by
  unfold mayContainSensitive
  cases registry.get? reference with
  | none => simp
  | some message =>
    simp only [Option.some.injEq, exists_eq_left', harmless_iff, Reach.Tells,
      Bool.or_eq_false_iff, List.any_eq_false, Bool.not_eq_true, and_assoc]

/-- A name keeps a dot at its start. -/
def Dotted (name : String) : Prop := name.toList.head? = some '.'

instance : DecidablePred Dotted := fun name =>
  inferInstanceAs (Decidable (name.toList.head? = some '.'))

/-- No name of a type and no name to which a field refers keeps a dot at its start. -/
structure Undotted (registry : Registry) : Prop where
  /-- The names of the types. -/
  name : ∀ message ∈ registry.messages, ¬ Dotted message.name
  /-- The names to which fields refer. -/
  typeName : ∀ message ∈ registry.messages, ∀ field ∈ message.fields,
    ∀ typeName ∈ field.typeName?, ¬ Dotted typeName

instance (registry : Registry) : Decidable registry.Undotted :=
  decidable_of_iff ((∀ message ∈ registry.messages, ¬ Dotted message.name) ∧
      ∀ message ∈ registry.messages, ∀ field ∈ message.fields, ∀ typeName ∈ field.typeName?,
        ¬ Dotted typeName)
    ⟨fun ⟨name, typeName⟩ => ⟨name, typeName⟩, fun undotted => ⟨undotted.name, undotted.typeName⟩⟩

/-- A name without a dot at its start means itself. -/
theorem withoutDot_eq_self {name : String} (plain : ¬ Dotted name) : withoutDot name = name := by
  unfold withoutDot
  split
  · next rest start => exact absurd (by rw [Dotted, start]; rfl) plain
  · rfl

/-- The name of a type means the type. -/
theorem get?_name (undotted : registry.Undotted) {message : Message}
    (member : message ∈ registry.messages) : registry.get? message.name = some message := by
  rw [get?, withoutDot_eq_self (undotted.name message member)]
  exact find?_eq_some_iff.mpr ⟨member, rfl⟩

/-- A type that a reference means belongs to the registry. -/
theorem mem_of_get?_eq_some {reference : String} {message : Message}
    (resolved : registry.get? reference = some message) : message ∈ registry.messages :=
  (find?_eq_some_iff.mp resolved).1

/-- The type of the messages in a field belongs to the registry. -/
theorem mem_of_nested?_eq_some {field : Field} {nested : Message}
    (resolved : registry.nested? field = some nested) : nested ∈ registry.messages := by
  obtain ⟨typeName, _, found⟩ := Option.bind_eq_some_iff.mp resolved
  exact mem_of_get?_eq_some found

/-- A harmless type has no secret fields. -/
theorem Harmless.visible {message : Message} (harmless : registry.Harmless policy message.name)
    (member : message ∈ registry.messages) :
    ∀ field ∈ message.fields, policy.isSensitive field = false := by
  obtain ⟨other, resolved, visible⟩ := harmless message.name .refl
  rw [find?_eq_some_iff.mpr ⟨member, rfl⟩] at resolved
  exact Option.some.inj resolved ▸ visible

/-- The fields of a harmless type hold no messages, or messages of harmless types. -/
theorem Harmless.nested (undotted : registry.Undotted) {message : Message}
    (harmless : registry.Harmless policy message.name) (member : message ∈ registry.messages)
    {field : Field} (declared : field ∈ message.fields) {typeName : String}
    (refers : field.typeName? = some typeName) :
    ∃ nested, registry.nested? field = some nested ∧ registry.Harmless policy nested.name := by
  have step : registry.Leads message.name typeName :=
    ⟨message, find?_eq_some_iff.mpr ⟨member, rfl⟩, List.mem_filterMap.mpr ⟨field, declared, refers⟩⟩
  obtain ⟨nested, resolved, _⟩ := harmless typeName (.single step)
  have named := (find?_eq_some_iff.mp resolved).2
  refine ⟨nested, ?_, fun target path => harmless target (.head step (named ▸ path))⟩
  rw [nested?, refers, Option.bind_some, get?,
    withoutDot_eq_self (undotted.typeName message member field declared typeName refers)]
  exact resolved

/-- A reference to a type with a secret field may lead to something secret. -/
theorem mayContainSensitive_of_secret {reference : String} {message : Message}
    (resolved : registry.get? reference = some message) {field : Field}
    (declared : field ∈ message.fields) (secret : policy.isSensitive field = true) :
    registry.mayContainSensitive policy reference = true := by
  rw [← Bool.not_eq_false, mayContainSensitive_eq_false_iff]
  rintro ⟨other, same, harmless⟩
  obtain rfl := Option.some.inj (resolved.symm.trans same)
  have visible := harmless.visible (mem_of_get?_eq_some resolved) field declared
  rw [secret] at visible
  cases visible

/-- A cleared type is harmless. -/
theorem harmless_of_mem_cleared (undotted : registry.Undotted) {message : Message}
    (member : message ∈ registry.messages) (cleared : message.name ∈ registry.cleared policy) :
    registry.Harmless policy message.name := by
  obtain ⟨_, clear⟩ := List.mem_filter.mp cleared
  rw [Bool.not_eq_true'] at clear
  obtain ⟨other, resolved, harmless⟩ := mayContainSensitive_eq_false_iff.mp clear
  rw [get?_name undotted member] at resolved
  exact Option.some.inj resolved ▸ harmless

end Registry

end Redaction.Schema

import Redaction.Proofs.Derivation.Complete
import Redaction.Proofs.Derivation.Refers

/-!
# The keys of a derived description

In the description of a derived type each key belongs to one call. A field call has a plain field
under its name, and a group call has the alternatives of the group that its type means; kind and
number of the values are those of the call, whatever is secret.
-/

namespace Redaction.Derivation

open Schema (Declaration Field Message Registry)

namespace Family

variable {family : Family} {site : String} {impl : MessageImpl} {message : Message}
  {call : FieldCall} {field : Field}

/-- Whether a field says of its values what a call at a site says of them. -/
structure Means (family : Family) (site : String) (call : FieldCall) (field : Field) : Prop where
  /-- The field has the name that the call gives. -/
  name : field.name = call.name
  /-- It has the kind of value. -/
  kind : family.kind? site call.kind = some field.kind
  /-- It has the number of values. -/
  cardinality : field.cardinality = call.cardinality

/-- The field that a call stands for says what the call says, and belongs to no group. -/
theorem means_of_field? (stands : family.field? site call = some field) :
    family.Means site call field ∧ field.group = none := by
  obtain ⟨kind, resolved, done⟩ := Option.bind_eq_some_iff.mp stands
  obtain rfl := Option.some.inj done
  exact ⟨⟨rfl, resolved, rfl⟩, rfl⟩

/-- Neither a mark nor a group changes what a field says of its values. -/
theorem Means.inGroup (means : family.Means site call field) (secret : Bool) (group : String) :
    family.Means site call ((if secret then field.secret else field).inGroup group) := by
  obtain ⟨name, kind, cardinality⟩ := means
  cases secret <;> exact ⟨name, kind, cardinality⟩

/-- The fields of a description are those of the declarations for which its calls stand. -/
theorem exists_stand (described : family.description? impl = some message) :
    ∃ declarations,
      List.Forall₂ (fun call declaration => family.declaration? impl.path call = some declaration)
        impl.calls declarations ∧ message = .ofDeclarations impl.typeName declarations := by
  obtain ⟨declarations, stand, done⟩ := Option.bind_eq_some_iff.mp described
  exact ⟨declarations, forall₂_of_mapM stand fun _ _ => id, (Option.some.inj done).symm⟩

/-- What a call declares belongs to the description. -/
theorem mem_fields_of_declaration? (described : family.description? impl = some message)
    {own : BuilderCall} (member : own ∈ impl.calls) :
    ∃ declaration, family.declaration? impl.path own = some declaration ∧
      ∀ field ∈ declaration.fields, field ∈ message.fields := by
  obtain ⟨declarations, stand, rfl⟩ := exists_stand described
  obtain ⟨declaration, present, stands⟩ := exists_counterpart stand member
  refine ⟨declaration, stands, fun field declared => ?_⟩
  rw [(Message.ofDeclarations_spec impl.typeName declarations).2.1]
  exact List.mem_flatMap.mpr ⟨declaration, present, declared⟩

/-- A field call has a plain field. -/
theorem exists_plainField (described : family.description? impl = some message)
    (member : .field call ∈ impl.calls) :
    ∃ field ∈ message.plainFields, family.Means impl.path call field := by
  obtain ⟨declaration, stands, inside⟩ := mem_fields_of_declaration? described member
  obtain ⟨field, made, rfl⟩ := Option.map_eq_some_iff.mp stands
  obtain ⟨means, single⟩ := means_of_field? made
  have declared := inside field (List.mem_singleton.mpr rfl)
  exact ⟨field, List.mem_filter.mpr ⟨declared, by rw [single]; rfl⟩, means⟩

/-- A group call has a group. Its alternatives are the fields for which the alternatives of the
group stand that the type means, all of them secret if the whole group is. -/
theorem exists_stood_alternatives (described : family.description? impl = some message)
    {name : String} {type : TypeExpr} {secret : Bool}
    (member : .oneof name type secret ∈ impl.calls) :
    name ∈ message.groups ∧ ∃ group, family.oneof? impl.path type = some group ∧
      ∀ call ∈ group.alternatives, ∃ field, family.field? group.path call = some field ∧
        (if secret then field.secret else field).inGroup name ∈ message.alternatives name := by
  obtain ⟨declaration, stands, inside⟩ := mem_fields_of_declaration? described member
  obtain ⟨declares, all, same⟩ := exists_declarations described
  obtain ⟨group, found, stands⟩ := Option.bind_eq_some_iff.mp stands
  obtain ⟨alternatives, computed, done⟩ := Option.bind_eq_some_iff.mp stands
  obtain rfl := Option.some.inj done
  refine ⟨same ▸ mem_groups_of_mem impl.typeName all member, group, found, fun call among => ?_⟩
  obtain ⟨field, listed, made⟩ :=
    exists_counterpart (forall₂_of_mapM computed fun _ _ => id) among
  refine ⟨field, made, ?_⟩
  refine List.mem_filter.mpr ⟨inside _ (List.mem_map.mpr ⟨_, ?_, rfl⟩), beq_self_eq_true _⟩
  cases secret with
  | false => exact listed
  | true => exact List.mem_map.mpr ⟨field, listed, rfl⟩

/-- A group call has a group, with an alternative for each of the group that its type means. -/
theorem exists_alternatives (described : family.description? impl = some message) {name : String}
    {type : TypeExpr} {secret : Bool} (member : .oneof name type secret ∈ impl.calls) :
    name ∈ message.groups ∧ ∃ group, family.oneof? impl.path type = some group ∧
      ∀ call ∈ group.alternatives, ∃ field ∈ message.alternatives name,
        family.Means group.path call field := by
  obtain ⟨listed, group, found, each⟩ := exists_stood_alternatives described member
  refine ⟨listed, group, found, fun call among => ?_⟩
  obtain ⟨field, made, declared⟩ := each call among
  exact ⟨_, declared, (means_of_field? made).1.inGroup secret name⟩

/-- A group has no other alternatives: each stands for one of the group that the type of a call of
its name means. -/
theorem exists_call_of_alternative (described : family.description? impl = some message)
    {name : String} {field : Field} (declared : field ∈ message.alternatives name) :
    ∃ type secret, .oneof name type secret ∈ impl.calls ∧
      ∃ group, family.oneof? impl.path type = some group ∧
        ∃ call ∈ group.alternatives, family.Means group.path call field := by
  obtain ⟨declarations, stand, rfl⟩ := exists_stand described
  rw [Message.alternatives,
    (Message.ofDeclarations_spec impl.typeName declarations).2.1] at declared
  obtain ⟨listed, belongs⟩ := List.mem_filter.mp declared
  obtain ⟨declaration, present, inside⟩ := List.mem_flatMap.mp listed
  obtain ⟨call, member, stands⟩ := exists_counterpart_left stand present
  cases call with
  | field call =>
    obtain ⟨own, made, rfl⟩ := Option.map_eq_some_iff.mp stands
    obtain rfl := List.mem_singleton.mp inside
    rw [(means_of_field? made).2] at belongs
    cases belongs
  | oneof first type secret =>
    obtain ⟨group, found, stands⟩ := Option.bind_eq_some_iff.mp stands
    obtain ⟨alternatives, computed, done⟩ := Option.bind_eq_some_iff.mp stands
    obtain rfl := Option.some.inj done
    obtain ⟨marked, kept, rfl⟩ := List.mem_map.mp inside
    obtain rfl : first = name := Option.some.inj (beq_iff_eq.mp belongs)
    have plain : ∃ own ∈ alternatives, marked = if secret then own.secret else own := by
      cases secret with
      | false => exact ⟨marked, kept, rfl⟩
      | true =>
        obtain ⟨own, among, same⟩ := List.mem_map.mp kept
        exact ⟨own, among, same.symm⟩
    obtain ⟨own, among, rfl⟩ := plain
    obtain ⟨call, stood, made⟩ :=
      exists_counterpart_left (forall₂_of_mapM computed fun _ _ => id) among
    exact ⟨type, secret, member, group, found, call, stood,
      (means_of_field? made).1.inGroup secret first⟩

section Alternatives

variable {calls : List BuilderCall} {declarations : List Declaration}
  (stand : List.Forall₂ (fun call declaration => family.declaration? site call = some declaration)
    calls declarations)

include stand

/-- Without a call of its name there is no alternative of a group. -/
theorem alternatives_eq_nil {group : String} (unnamed : group ∉ calls.map BuilderCall.name) :
    (declarations.flatMap Declaration.fields).filter (fun field => field.group == some group) =
      [] := by
  refine List.filter_eq_nil_iff.mpr fun field declared belongs => unnamed ?_
  obtain ⟨declaration, present, inside⟩ := List.mem_flatMap.mp declared
  obtain ⟨call, member, stands⟩ := exists_counterpart_left stand present
  cases declares_of_declaration? stands with
  | field =>
    obtain rfl := List.mem_singleton.mp inside
    cases belongs
  | oneof first type secret alternatives =>
    obtain ⟨_, _, rfl⟩ := List.mem_map.mp inside
    have same : first = group := Option.some.inj (beq_iff_eq.mp belongs)
    exact List.mem_map.mpr ⟨_, member, same⟩

/-- The alternatives of a group are those of one call, so their names are distinct. -/
theorem nodup_alternatives (distinct : (calls.map BuilderCall.name).Nodup)
    (each : ∀ group ∈ family.oneofs, (group.alternatives.map FieldCall.name).Nodup)
    (group : String) :
    (((declarations.flatMap Declaration.fields).filter
      fun field => field.group == some group).map Field.name).Nodup := by
  induction stand with
  | nil => exact List.nodup_nil
  | @cons call declaration calls declarations stands others ih =>
    rw [List.map_cons, List.nodup_cons] at distinct
    rw [List.flatMap_cons, List.filter_append]
    by_cases own : call.name = group
    · subst own
      rw [alternatives_eq_nil others distinct.1, List.append_nil]
      refine List.Nodup.sublist (List.filter_sublist.map _) ?_
      cases call with
      | field call =>
        obtain ⟨field, _, rfl⟩ := Option.map_eq_some_iff.mp stands
        exact List.nodup_singleton _
      | oneof name type secret =>
        obtain ⟨group, found, stands⟩ := Option.bind_eq_some_iff.mp stands
        obtain ⟨alternatives, computed, done⟩ := Option.bind_eq_some_iff.mp stands
        obtain rfl := Option.some.inj done
        have names : group.alternatives.map FieldCall.name = alternatives.map Field.name :=
          map_eq_map_of_forall₂ (forall₂_of_mapM computed fun _ _ => id)
            fun _ _ made => (means_of_field? made).1.name.symm
        have kept : (Declaration.oneof name (if secret then alternatives.map Field.secret
            else alternatives)).fields.map Field.name = alternatives.map Field.name := by
          cases secret <;> simp [Declaration.fields, Field.inGroup, Field.secret, Function.comp_def]
        rw [kept, ← names]
        exact each group (mem_of_oneof? found)
    · have none : declaration.fields.filter (fun field => field.group == some group) = [] := by
        have unnamed : group ∉ [call].map BuilderCall.name := fun named =>
          own (List.mem_singleton.mp named).symm
        have alone := alternatives_eq_nil (.cons stands .nil) unnamed
        rwa [List.flatMap_singleton] at alone
      rw [none, List.nil_append]
      exact ih distinct.2

end Alternatives

/-- A description is well named if the names of its calls are distinct, and so are those of the
alternatives of each group. -/
theorem wellNamed_of_description? (described : family.description? impl = some message)
    (distinct : (impl.calls.map BuilderCall.name).Nodup)
    (each : ∀ group ∈ family.oneofs, (group.alternatives.map FieldCall.name).Nodup) :
    message.WellNamed := by
  obtain ⟨declarations, stand, rfl⟩ := exists_stand described
  have declares : List.Forall₂ BuilderCall.Declares impl.calls declarations :=
    stand.imp fun _ _ => declares_of_declaration?
  obtain ⟨plain, _, apart⟩ :=
    List.nodup_append.mp (nodup_names impl.typeName declares distinct)
  refine ⟨plain, fun field present listed => ?_, fun group _ => ?_⟩
  · exact apart _ (List.mem_map_of_mem present) _ listed rfl
  · rw [Message.alternatives, (Message.ofDeclarations_spec impl.typeName declarations).2.1]
    exact nodup_alternatives stand distinct each group

/-- In a family that is derived from declarations, the description of a derived type is well
named. -/
theorem wellNamed_of_derive {messages oneofs : List Item} {meaning : Meaning}
    (accepted : Family.derive messages oneofs meaning = .ok family) {item : Item}
    (made : deriveMessage item = .ok impl) (described : family.description? impl = some message) :
    message.WellNamed := by
  obtain ⟨_, _, _, _, calls, _⟩ := deriveMessage_eq_ok made
  obtain ⟨impls, _, accepted⟩ := bind_eq_ok_iff.mp accepted
  obtain ⟨groups, second, accepted⟩ := bind_eq_ok_iff.mp accepted
  obtain rfl := Except.ok.inj accepted
  refine wellNamed_of_description? described (describeFields_spec calls).2.1 fun group among => ?_
  obtain ⟨item, _, made⟩ := exists_of_mem_mapM second among
  obtain ⟨_, _, alternatives, _⟩ := deriveOneof_eq_ok made
  exact (describeVariants_spec alternatives).2.1

end Family

end Redaction.Derivation

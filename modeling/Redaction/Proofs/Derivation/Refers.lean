import Redaction.Proofs.Derivation.Declares

/-!
# References between derived message types

A derived message type refers to the types of its message fields and of the alternatives of its
groups. These are the types that it registers, and those that the references in its description
mean.
-/

namespace Redaction.Derivation

open Schema (Declaration Field Message Provider)
open Schema.Registry (Dotted)

/-- What is computed one by one is what is computed from the items. -/
theorem mem_iff_of_mapM {α β : Type} {f : α → Option β} {items : List α} {results : List β}
    (done : items.mapM f = some results) {result : β} :
    result ∈ results ↔ ∃ item ∈ items, f item = some result := by
  have all : List.Forall₂ (fun item result => f item = some result) items results :=
    forall₂_of_mapM done fun _ _ => id
  refine ⟨exists_counterpart_left all, ?_⟩
  rintro ⟨item, present, computed⟩
  obtain ⟨twin, member, same⟩ := exists_counterpart all present
  exact Option.some.inj (computed.symm.trans same) ▸ member

namespace Family

variable {family : Family} {impl next : MessageImpl}

/-- The type of the messages in a field that is declared at a site. -/
def target? (family : Family) (site : String) (call : FieldCall) : Option MessageImpl :=
  call.messageType?.bind (family.message? site)

/-- A call at a site leads to a message type: it describes a message field, or a group with a
message among its alternatives. -/
inductive LeadsTo (family : Family) (next : MessageImpl) (site : String) : BuilderCall → Prop where
  /-- A message field. -/
  | field {call : FieldCall} (target : family.target? site call = some next) :
      LeadsTo family next site (.field call)
  /-- An alternative of a group. -/
  | alternative {name : String} {type : TypeExpr} {secret : Bool} {group : OneofImpl}
      {call : FieldCall} (means : family.oneof? site type = some group)
      (among : call ∈ group.alternatives) (target : family.target? group.path call = some next) :
      LeadsTo family next site (.oneof name type secret)

/-- A message type refers to another one if one of its calls leads there. -/
def Refers (family : Family) (impl next : MessageImpl) : Prop :=
  ∃ call ∈ impl.calls, family.LeadsTo next impl.path call

/-- A type that is found belongs to the family. -/
theorem mem_of_own? {path : String} (found : family.own? path = some impl) :
    impl ∈ family.messages :=
  List.mem_of_find?_eq_some found

/-- A type that is found has the path under which it was sought. -/
theorem path_of_own? {path : String} (found : family.own? path = some impl) :
    impl.path = path := by
  simpa using List.find?_some found

/-- A type that is meant is found under its path. -/
theorem own?_of_message? {site : String} {type : TypeExpr}
    (means : family.message? site type = some impl) : family.own? impl.path = some impl := by
  obtain ⟨path, _, found⟩ := Option.bind_eq_some_iff.mp means
  rwa [path_of_own? found]

/-- A type that is referred to is found under its path. -/
theorem Refers.own? (refers : family.Refers impl next) : family.own? next.path = some next := by
  obtain ⟨call, _, leads⟩ := refers
  cases leads with
  | field target | alternative _ _ target =>
    obtain ⟨type, _, means⟩ := Option.bind_eq_some_iff.mp target
    exact own?_of_message? means

/-- What holds of a family because of its derivation from declarations, if its message types have
distinct names in the schema. -/
structure Derived (family : Family) : Prop where
  /-- A message type registers what its fields and groups mention. -/
  registers : ∀ impl ∈ family.messages,
    impl.registrations = impl.calls.flatMap BuilderCall.registrations
  /-- A group registers what its alternatives mention. -/
  passes : ∀ group ∈ family.oneofs,
    group.registrations = group.alternatives.flatMap fun call => call.messageType?.toList
  /-- No name of a type keeps a dot at its start. -/
  plain : ∀ impl ∈ family.messages, ¬ Dotted impl.typeName
  /-- No two types share a name. -/
  distinct : (family.messages.map MessageImpl.typeName).Nodup

/-- A family that is derived from declarations. -/
theorem derived_of_derive {messages oneofs : List Item} {meaning : Meaning}
    (accepted : Family.derive messages oneofs meaning = .ok family)
    (words : ∀ item ∈ messages, '.' ∉ item.ident.toList)
    (distinct : (family.messages.map MessageImpl.typeName).Nodup) : family.Derived := by
  obtain ⟨impls, first, accepted⟩ := bind_eq_ok_iff.mp accepted
  obtain ⟨groups, second, accepted⟩ := bind_eq_ok_iff.mp accepted
  obtain rfl := Except.ok.inj accepted
  refine ⟨fun impl member => ?_, fun group member => ?_, fun impl member => ?_, distinct⟩
  · obtain ⟨item, _, derived⟩ := exists_of_mem_mapM first member
    obtain ⟨_, _, _, _, described, _, _⟩ := deriveMessage_eq_ok derived
    exact (describeFields_spec described).1
  · obtain ⟨item, _, derived⟩ := exists_of_mem_mapM second member
    exact registrations_of_deriveOneof derived
  · obtain ⟨item, present, derived⟩ := exists_of_mem_mapM first member
    exact not_dotted_of_deriveMessage derived (words item present)

/-- The types that are registered after a type, in this order. -/
def successors? (family : Family) (impl : MessageImpl) : Option (List MessageImpl) :=
  (impl.registrations.mapM (family.registered? impl.path)).map List.flatten

/-- A group that is meant belongs to the family. -/
theorem mem_of_oneof? {site : String} {type : TypeExpr} {group : OneofImpl}
    (means : family.oneof? site type = some group) : group ∈ family.oneofs := by
  obtain ⟨path, _, found⟩ := Option.bind_eq_some_iff.mp means
  exact List.mem_of_find?_eq_some found

/-- What the registration of a call registers, the call leads to. -/
theorem Derived.leadsTo_of_registered? (derived : family.Derived) {site : String}
    {call : BuilderCall} {registration : Registration}
    (mentioned : registration ∈ call.registrations) {types : List MessageImpl}
    (registered : family.registered? site registration = some types) (member : next ∈ types) :
    family.LeadsTo next site call := by
  cases call with
  | field call =>
    obtain ⟨type, written, rfl⟩ := List.mem_map.mp mentioned
    obtain ⟨target, means, rfl⟩ := Option.map_eq_some_iff.mp registered
    obtain rfl := List.mem_singleton.mp member
    exact .field (Option.bind_eq_some_iff.mpr ⟨type, Option.mem_toList.mp written, means⟩)
  | oneof name type secret =>
    obtain rfl := List.mem_singleton.mp mentioned
    obtain ⟨group, means, registered⟩ := Option.bind_eq_some_iff.mp registered
    obtain ⟨inner, listed, target⟩ := (mem_iff_of_mapM registered).mp member
    rw [derived.passes group (mem_of_oneof? means)] at listed
    obtain ⟨call, among, written⟩ := List.mem_flatMap.mp listed
    exact .alternative means among
      (Option.bind_eq_some_iff.mpr ⟨inner, Option.mem_toList.mp written, target⟩)

/-- What a call leads to, one of its registrations registers. -/
theorem Derived.exists_registered? (derived : family.Derived) {site : String} {call : BuilderCall}
    (leads : family.LeadsTo next site call) : ∃ registration ∈ call.registrations,
      ∀ types, family.registered? site registration = some types → next ∈ types := by
  cases leads with
  | @field call target =>
    obtain ⟨type, written, means⟩ := Option.bind_eq_some_iff.mp target
    refine ⟨.message type, List.mem_map.mpr ⟨type, Option.mem_toList.mpr written, rfl⟩, ?_⟩
    intro types registered
    rw [registered?, means, Option.map_some] at registered
    exact Option.some.inj registered ▸ List.mem_singleton.mpr rfl
  | @alternative name type secret group call means among target =>
    refine ⟨.alternatives type, List.mem_singleton.mpr rfl, fun types registered => ?_⟩
    obtain ⟨inner, written, found⟩ := Option.bind_eq_some_iff.mp target
    obtain ⟨other, same, registered⟩ := Option.bind_eq_some_iff.mp registered
    obtain rfl := Option.some.inj (means.symm.trans same)
    refine (mem_iff_of_mapM registered).mpr ⟨inner, ?_, found⟩
    rw [derived.passes group (mem_of_oneof? means)]
    exact List.mem_flatMap.mpr ⟨call, among, Option.mem_toList.mpr written⟩

/-- The types that are registered after a type are those to which it refers. -/
theorem Derived.mem_successors_iff (derived : family.Derived) (member : impl ∈ family.messages)
    {successors : List MessageImpl} (known : family.successors? impl = some successors) :
    next ∈ successors ↔ family.Refers impl next := by
  obtain ⟨lists, computed, rfl⟩ := Option.map_eq_some_iff.mp known
  have registers := derived.registers impl member
  rw [List.mem_flatten]
  constructor
  · rintro ⟨types, among, inside⟩
    obtain ⟨registration, present, registered⟩ := (mem_iff_of_mapM computed).mp among
    rw [registers] at present
    obtain ⟨call, described, mentioned⟩ := List.mem_flatMap.mp present
    exact ⟨call, described, derived.leadsTo_of_registered? mentioned registered inside⟩
  · rintro ⟨call, described, leads⟩
    obtain ⟨registration, mentioned, each⟩ := derived.exists_registered? leads
    have present : registration ∈ impl.registrations :=
      registers ▸ List.mem_flatMap.mpr ⟨call, described, mentioned⟩
    obtain ⟨types, among, registered⟩ :=
      exists_counterpart (forall₂_of_mapM computed fun _ _ => id) present
    exact ⟨types, among, each types registered⟩

/-- The types that are registered after a type belong to the family. -/
theorem Derived.mem_of_successors (derived : family.Derived) (member : impl ∈ family.messages)
    {successors : List MessageImpl} (known : family.successors? impl = some successors) :
    ∀ next ∈ successors, next ∈ family.messages := fun _ listed =>
  mem_of_own? ((derived.mem_successors_iff member known).mp listed).own?

/-- The type that the reference of a field means is the target of its call. -/
theorem target?_of_field? {site : String} {call : FieldCall} {field : Field} {reference : String}
    (stands : family.field? site call = some field) (refers : field.reference? = some reference) :
    ∃ next, family.target? site call = some next ∧ next.typeName = reference := by
  obtain ⟨kind, resolved, done⟩ := Option.bind_eq_some_iff.mp stands
  obtain rfl := Option.some.inj done
  unfold target? FieldCall.messageType?
  cases written : call.kind with
  | scalar | enumeration =>
    rw [written] at resolved
    obtain rfl := Option.some.inj resolved
    cases refers
  | message type =>
    rw [written] at resolved
    obtain ⟨next, means, rfl⟩ := Option.map_eq_some_iff.mp resolved
    exact ⟨next, means, Option.some.inj refers⟩

/-- Each reference in the description of a type is the name of a type to which it refers. -/
theorem exists_refers_of_description? {message : Message}
    (described : family.description? impl = some message) {field : Field}
    (declared : field ∈ message.fields) {reference : String}
    (refers : field.reference? = some reference) :
    ∃ next, family.Refers impl next ∧ next.typeName = reference := by
  obtain ⟨declarations, stand, done⟩ := Option.bind_eq_some_iff.mp described
  obtain rfl := Option.some.inj done
  rw [(Message.ofDeclarations_spec impl.typeName declarations).2.1] at declared
  obtain ⟨declaration, present, inside⟩ := List.mem_flatMap.mp declared
  obtain ⟨call, written, stands⟩ := (mem_iff_of_mapM stand).mp present
  cases call with
  | field call =>
    obtain ⟨own, described, rfl⟩ := Option.map_eq_some_iff.mp stands
    obtain rfl := List.mem_singleton.mp inside
    obtain ⟨next, target, named⟩ := target?_of_field? described refers
    exact ⟨next, ⟨_, written, .field target⟩, named⟩
  | oneof name type secret =>
    obtain ⟨group, means, stands⟩ := Option.bind_eq_some_iff.mp stands
    obtain ⟨alternatives, computed, done⟩ := Option.bind_eq_some_iff.mp stands
    obtain rfl := Option.some.inj done
    obtain ⟨marked, listed, rfl⟩ := List.mem_map.mp inside
    -- neither the mark nor the group changes to which type a field refers
    have plain : ∃ alternative ∈ alternatives, alternative.reference? = some reference := by
      cases secret with
      | false => exact ⟨marked, listed, refers⟩
      | true =>
        obtain ⟨alternative, among, rfl⟩ := List.mem_map.mp listed
        exact ⟨alternative, among, refers⟩
    obtain ⟨alternative, among, refers⟩ := plain
    obtain ⟨call, chosen, described⟩ := (mem_iff_of_mapM computed).mp among
    obtain ⟨next, target, named⟩ := target?_of_field? described refers
    exact ⟨next, ⟨_, written, .alternative means chosen target⟩, named⟩

end Family

end Redaction.Derivation

import Redaction.Proofs.Derivation.Registers

/-!
# What a run of registrations adds

A run of registrations may start from any registry. It passes over every type whose name is taken
and goes no further there, so it adds exactly those types that can be reached through types whose
names were vacant before the run.
-/

namespace Redaction.Derivation

open Relation
open Schema (Message Registry)

namespace Family

variable {family : Family} {impl next root : MessageImpl}

/-- A description has the name of its type. -/
theorem Derived.name_eq (derived : family.Derived) (member : impl ∈ family.messages)
    {message : Message} (described : family.description? impl = some message) :
    message.name = impl.typeName := by
  obtain ⟨declarations, _, done⟩ := Option.bind_eq_some_iff.mp described
  obtain rfl := Option.some.inj done
  rw [(Message.ofDeclarations_spec impl.typeName declarations).1,
    Registry.withoutDot_eq_self (derived.plain impl member)]

/-- A description belongs to one type only. -/
theorem Derived.eq_of_description? {other : MessageImpl} (derived : family.Derived)
    (member : impl ∈ family.messages) (among : other ∈ family.messages) {message : Message}
    (described : family.description? impl = some message)
    (same : family.description? other = some message) : impl = other := by
  refine List.inj_on_of_nodup_map derived.distinct member among ?_
  rw [← derived.name_eq member described, derived.name_eq among same]

/-- Whatever types are reached belong to the family. -/
theorem mem_of_reached (member : root ∈ family.messages)
    (path : ReflTransGen family.Refers root impl) : impl ∈ family.messages := by
  cases path with
  | refl => exact member
  | tail _ step => exact mem_of_own? step.own?

/-- A type is reached from another one through types whose names are vacant, itself included. -/
inductive ReachedAnew (family : Family) (registry : Registry) (root : MessageImpl) :
    MessageImpl → Prop where
  /-- The type itself. -/
  | root (vacant : root.typeName ∉ registry.names) : ReachedAnew family registry root root
  /-- A type to which a type that is reached refers. -/
  | step {impl next : MessageImpl} (before : ReachedAnew family registry root impl)
      (refers : family.Refers impl next) (vacant : next.typeName ∉ registry.names) :
      ReachedAnew family registry root next

namespace ReachedAnew

variable {registry larger : Registry}

/-- The name of a type that is reached is vacant. -/
theorem vacant (reached : family.ReachedAnew registry root impl) :
    impl.typeName ∉ registry.names := by
  cases reached with
  | root vacant => exact vacant
  | step _ _ vacant => exact vacant

/-- What is reached is reached by references. -/
theorem path (reached : family.ReachedAnew registry root impl) :
    ReflTransGen family.Refers root impl := by
  induction reached with
  | root => exact .refl
  | step _ refers _ ih => exact .tail ih refers

/-- A reference may be put in front. -/
theorem head (vacant : root.typeName ∉ registry.names) (refers : family.Refers root next)
    (reached : family.ReachedAnew registry next impl) : family.ReachedAnew registry root impl := by
  induction reached with
  | root free => exact .step (.root vacant) refers free
  | step _ further free ih => exact .step ih further free

/-- What is vacant in a larger registry is vacant in a smaller one. -/
theorem anti (grows : ∀ name ∈ registry.names, name ∈ larger.names)
    (reached : family.ReachedAnew larger root impl) : family.ReachedAnew registry root impl := by
  induction reached with
  | root vacant => exact .root fun taken => vacant (grows _ taken)
  | step _ refers vacant ih => exact .step ih refers fun taken => vacant (grows _ taken)

/-- Where no name is taken every path counts. -/
theorem of_path (path : ReflTransGen family.Refers root impl) :
    family.ReachedAnew .empty root impl := by
  induction path with
  | refl => exact .root List.not_mem_nil
  | tail _ refers ih => exact .step ih refers List.not_mem_nil

end ReachedAnew

/-- The names of a registry with one more type. -/
theorem mem_names_of_insert? {registry larger : Registry} {message : Message}
    (accepted : registry.insert? message = some larger) {name : String} :
    name ∈ larger.names ↔ name ∈ registry.names ∨ name = message.name := by
  rw [Registry.names, (Registry.insert?_eq_some_iff.mp accepted).2, List.map_append,
    List.mem_append, List.map_singleton, List.mem_singleton, Registry.names]

/-- Registrations remove no name. -/
theorem Registers.mem_names {registry result : Registry} {impls : List MessageImpl}
    (run : family.Registers registry impls result) {name : String} (taken : name ∈ registry.names) :
    name ∈ result.names := by
  obtain ⟨message, present, named⟩ := List.mem_map.mp taken
  exact List.mem_map.mpr ⟨message, run.mem_of_mem present, named⟩

section Runs

variable {registry result : Registry} {impls : List MessageImpl} (derived : family.Derived)
  (run : family.Registers registry impls result)
  (members : ∀ impl ∈ impls, impl ∈ family.messages)

include derived run members

/-- A run adds only what can be reached through vacant names. -/
theorem Registers.reached {message : Message} (present : message ∈ result.messages) :
    message ∈ registry.messages ∨ ∃ root ∈ impls, ∃ impl, family.ReachedAnew registry root impl ∧
      family.description? impl = some message := by
  induction run with
  | done => exact .inl present
  | taken _ _ _ ih =>
    obtain ⟨_, others⟩ := List.forall_mem_cons.mp members
    rcases ih others present with before | ⟨root, among, reached⟩
    · exact .inl before
    · exact .inr ⟨root, List.mem_cons_of_mem _ among, reached⟩
  | @added registry larger between _ impl _ _ _ described accepted known inner _ innerIh laterIh =>
    obtain ⟨member, others⟩ := List.forall_mem_cons.mp members
    have grows : ∀ name ∈ registry.names, name ∈ larger.names := fun name taken =>
      (mem_names_of_insert? accepted).mpr (.inl taken)
    have vacant : impl.typeName ∉ registry.names := by
      rw [← derived.name_eq member described]
      exact (Registry.insert?_eq_some_iff.mp accepted).1
    rcases laterIh others present with earlier | ⟨root, among, target, reached, stands⟩
    · rcases innerIh (derived.mem_of_successors member known) earlier with
        first | ⟨next, among, target, reached, stands⟩
      · rw [(Registry.insert?_eq_some_iff.mp accepted).2, List.mem_append,
          List.mem_singleton] at first
        rcases first with before | rfl
        · exact .inl before
        · exact .inr ⟨impl, List.mem_cons_self, impl, .root vacant, described⟩
      · have refers := (derived.mem_successors_iff member known).mp among
        have through := ReachedAnew.head vacant refers (reached.anti grows)
        exact .inr ⟨impl, List.mem_cons_self, target, through, stands⟩
    · have still : ∀ name ∈ registry.names, name ∈ between.names := fun name taken =>
        inner.mem_names (grows name taken)
      exact .inr ⟨root, List.mem_cons_of_mem _ among, target, reached.anti still, stands⟩

/-- After a run the names of all types that were to be registered are taken. -/
theorem Registers.taken_names : ∀ impl ∈ impls, impl.typeName ∈ result.names := by
  induction run with
  | done => exact List.forall_mem_nil _
  | taken described refused later ih =>
    obtain ⟨member, others⟩ := List.forall_mem_cons.mp members
    refine List.forall_mem_cons.mpr ⟨later.mem_names ?_, ih others⟩
    rw [← derived.name_eq member described]
    exact Registry.insert?_eq_none_iff.mp refused
  | added described accepted known inner later _ ih =>
    obtain ⟨member, others⟩ := List.forall_mem_cons.mp members
    refine List.forall_mem_cons.mpr ⟨later.mem_names (inner.mem_names ?_), ih others⟩
    rw [← derived.name_eq member described]
    exact (mem_names_of_insert? accepted).mpr (.inr rfl)

/-- A description that is held after a run was held before, or all types to which its type refers
have their names taken. One that was held before may still wait for them, as its own registration
may be going on. -/
theorem Registers.closed {message : Message} (member : impl ∈ family.messages)
    (described : family.description? impl = some message) (present : message ∈ result.messages) :
    message ∈ registry.messages ∨
      ∀ next, family.Refers impl next → next.typeName ∈ result.names := by
  induction run with
  | done => exact .inl present
  | taken _ _ _ ih =>
    obtain ⟨_, others⟩ := List.forall_mem_cons.mp members
    exact ih others present
  | added stands accepted known inner later innerIh laterIh =>
    obtain ⟨first, others⟩ := List.forall_mem_cons.mp members
    have inside := derived.mem_of_successors first known
    rcases laterIh others present with between | closed
    · rcases innerIh inside between with larger | closed
      · rw [(Registry.insert?_eq_some_iff.mp accepted).2, List.mem_append,
          List.mem_singleton] at larger
        rcases larger with before | rfl
        · exact .inl before
        · obtain rfl := derived.eq_of_description? member first described stands
          refine .inr fun next refers => later.mem_names ?_
          exact inner.taken_names derived inside next
            ((derived.mem_successors_iff member known).mpr refers)
      · exact .inr fun next refers => later.mem_names (closed next refers)
    · exact .inr closed

/-- A run adds the description of each type whose name it takes. -/
theorem Registers.exists_description (member : impl ∈ family.messages)
    (vacant : impl.typeName ∉ registry.names) (taken : impl.typeName ∈ result.names) :
    ∃ message ∈ result.messages, family.description? impl = some message := by
  obtain ⟨message, present, named⟩ := List.mem_map.mp taken
  rcases run.reached derived members present with before | ⟨root, among, owner, anew, described⟩
  · exact absurd (List.mem_map.mpr ⟨message, before, named⟩) vacant
  · have belongs := mem_of_reached (members root among) anew.path
    have same : owner = impl := by
      refine List.inj_on_of_nodup_map derived.distinct belongs member ?_
      rw [← derived.name_eq belongs described, named]
    exact ⟨message, present, same ▸ described⟩

/-- A run adds whatever can be reached through vacant names. -/
theorem Registers.holds_reached {root : MessageImpl} (among : root ∈ impls)
    (anew : family.ReachedAnew registry root impl) :
    ∃ message ∈ result.messages, family.description? impl = some message := by
  have belongs := mem_of_reached (members root among) anew.path
  refine run.exists_description derived members belongs anew.vacant ?_
  induction anew with
  | root => exact run.taken_names derived members root among
  | @step impl next before refers _ ih =>
    have inside := mem_of_reached (members root among) before.path
    obtain ⟨message, present, described⟩ :=
      run.exists_description derived members inside before.vacant (ih inside)
    rcases run.closed derived members inside described present with early | closed
    · refine absurd (List.mem_map.mpr ⟨message, early, ?_⟩) before.vacant
      exact derived.name_eq inside described
    · exact closed next refers

/-- What a run adds is exactly what can be reached through vacant names. -/
theorem Registers.mem_iff (message : Message) :
    message ∈ result.messages ↔ message ∈ registry.messages ∨
      ∃ root ∈ impls, ∃ impl, family.ReachedAnew registry root impl ∧
        family.description? impl = some message := by
  refine ⟨run.reached derived members, ?_⟩
  rintro (before | ⟨root, among, impl, anew, described⟩)
  · exact run.mem_of_mem before
  · obtain ⟨other, present, stands⟩ := run.holds_reached derived members among anew
    exact Option.some.inj (stands.symm.trans described) ▸ present

end Runs

end Family

end Redaction.Derivation

import Redaction.Proofs.Derivation.Refers

/-!
# Runs of the derived registrations

A derived message type registers itself, unless its name is taken, and then the types to which it
refers. A run of these registrations ends, and its result is that of the search through the
providers. A type whose name is taken may still be in the midst of its own registration; in the end
each type that has been added in the run has all types to which it refers.
-/

namespace Redaction.Derivation

open Schema (Message Provider Registry)

/-- What corresponds one by one is found at the same place. -/
theorem exists_find?_of_forall₂ {α β : Type} {related : α → β → Prop} {first : α → Bool}
    {second : β → Bool} (agree : ∀ item twin, related item twin → first item = second twin)
    {items : List α} {twins : List β} (all : List.Forall₂ related items twins) {item : α}
    (found : items.find? first = some item) :
    ∃ twin, twins.find? second = some twin ∧ related item twin := by
  induction all with
  | nil => cases found
  | @cons other twin _ _ here _ ih =>
    rw [List.find?_cons] at found ⊢
    rw [← agree other twin here]
    cases holds : first other with
    | true =>
      rw [holds] at found
      exact ⟨twin, rfl, Option.some.inj found ▸ here⟩
    | false =>
      rw [holds] at found
      exact ih found

namespace Family

variable {family : Family} {impl next : MessageImpl} {providers : List Provider}

/-- The provider of an implementation has its description, and the types that are registered after
it as its dependencies. -/
theorem provider?_eq_some {provider : Provider} (made : family.provider? impl = some provider) :
    family.description? impl = some provider.message ∧ provider.ident = impl.path ∧
      ∃ successors, family.successors? impl = some successors ∧
        provider.dependencies = successors.map MessageImpl.path := by
  obtain ⟨message, described, made⟩ := Option.bind_eq_some_iff.mp made
  obtain ⟨registered, computed, made⟩ := Option.bind_eq_some_iff.mp made
  obtain rfl := Option.some.inj made
  exact ⟨described, rfl, registered.flatten, by rw [successors?, computed, Option.map_some], rfl⟩

/-- The word that means a type means its provider. -/
theorem exists_provider (complete : family.providers? = some providers) {ident : String}
    (found : family.own? ident = some impl) :
    ∃ provider, Provider.find? providers ident = some provider ∧
      family.provider? impl = some provider := by
  have all : List.Forall₂ (fun impl provider => family.provider? impl = some provider)
      family.messages providers := forall₂_of_mapM complete fun _ _ => id
  refine exists_find?_of_forall₂ (fun impl provider made => ?_) all found
  rw [(provider?_eq_some made).2.1]

/-- A run of the registrations of several types, one after the other. -/
inductive Registers (family : Family) : Registry → List MessageImpl → Registry → Prop where
  /-- Nothing is left. -/
  | done (registry : Registry) : Registers family registry [] registry
  /-- The name of the first type is taken. -/
  | taken {registry result : Registry} {impl : MessageImpl} {rest : List MessageImpl}
      {message : Message} (described : family.description? impl = some message)
      (refused : registry.insert? message = none)
      (later : Registers family registry rest result) :
      Registers family registry (impl :: rest) result
  /-- The first type is added, and then what it registers. -/
  | added {registry larger between result : Registry} {impl : MessageImpl}
      {rest successors : List MessageImpl} {message : Message}
      (described : family.description? impl = some message)
      (accepted : registry.insert? message = some larger)
      (known : family.successors? impl = some successors)
      (inner : Registers family larger successors between)
      (later : Registers family between rest result) :
      Registers family registry (impl :: rest) result

/-- Registrations remove nothing. -/
theorem Registers.mem_of_mem {registry result : Registry} {impls : List MessageImpl}
    (run : family.Registers registry impls result) {message : Message}
    (before : message ∈ registry.messages) : message ∈ result.messages := by
  induction run with
  | done => exact before
  | taken _ _ _ ih => exact ih before
  | added _ accepted _ _ _ inner later =>
    refine later (inner ?_)
    rw [(Registry.insert?_eq_some_iff.mp accepted).2]
    exact List.mem_append_left _ before

section Termination

/-- What a registry holds more cannot be added any longer. -/
theorem length_addable_le {registry larger : Registry}
    (grows : ∀ message ∈ registry.messages, message ∈ larger.messages) :
    (larger.addable providers).length ≤ (registry.addable providers).length := by
  refine (List.monotone_filter_right providers fun provider free => ?_).length_le
  have free := of_decide_eq_true free
  refine decide_eq_true fun taken => free ?_
  obtain ⟨message, present, named⟩ := List.mem_map.mp taken
  exact List.mem_map.mpr ⟨message, grows message present, named⟩

/-- The registrations of any types of the family come to an end: each type that is added leaves
fewer that can be added, and the others only shorten the list. -/
theorem exists_registers (complete : family.providers? = some providers) (derived : family.Derived)
    (registry : Registry) (impls : List MessageImpl)
    (members : ∀ impl ∈ impls, impl ∈ family.messages) :
    ∃ result, family.Registers registry impls result := by
  induction size : (registry.addable providers).length using Nat.strongRecOn
    generalizing registry impls with
  | _ size fewer =>
    subst size
    induction impls with
    | nil => exact ⟨registry, .done registry⟩
    | cons impl rest shorter =>
      obtain ⟨member, others⟩ := List.forall_mem_cons.mp members
      obtain ⟨provider, present, made⟩ :=
        exists_counterpart (forall₂_of_mapM complete fun _ _ => id) member
      obtain ⟨described, _, successors, known, _⟩ := provider?_eq_some made
      cases attempt : registry.insert? provider.message with
      | none =>
        obtain ⟨result, later⟩ := shorter others
        exact ⟨result, .taken described attempt later⟩
      | some larger =>
        have less := Registry.length_addable_lt present attempt
        obtain ⟨between, inner⟩ :=
          fewer _ less larger successors (derived.mem_of_successors member known) rfl
        have still := Nat.lt_of_le_of_lt (length_addable_le fun _ => inner.mem_of_mem) less
        obtain ⟨result, later⟩ := fewer _ still between rest others rfl
        exact ⟨result, .added described attempt known inner later⟩

end Termination

section Search

/-- The search passes over a provider whose name is taken. -/
theorem registerAll_of_taken {ident : String} {provider : Provider}
    (found : Provider.find? providers ident = some provider) {registry : Registry}
    (refused : registry.insert? provider.message = none) (rest : List String) :
    Registry.registerAll providers registry (ident :: rest) =
      Registry.registerAll providers registry rest := by
  rw [Registry.registerAll]
  split
  · next missing => cases found.symm.trans missing
  · next other same =>
    obtain rfl := Option.some.inj (found.symm.trans same)
    split
    · rfl
    · next accepted => cases refused.symm.trans accepted

/-- The search adds a provider whose name is free, and goes on with its dependencies. -/
theorem registerAll_of_added {ident : String} {provider : Provider}
    (found : Provider.find? providers ident = some provider) {registry larger : Registry}
    (accepted : registry.insert? provider.message = some larger) (rest : List String) :
    Registry.registerAll providers registry (ident :: rest) =
      Registry.registerAll providers larger (provider.dependencies ++ rest) := by
  rw [Registry.registerAll]
  split
  · next missing => cases found.symm.trans missing
  · next other same =>
    obtain rfl := Option.some.inj (found.symm.trans same)
    split
    · next refused => cases refused.symm.trans accepted
    · next again => rw [Option.some.inj (again.symm.trans accepted)]

/-- A run leads to where the search arrives once it has dealt with the same types. -/
theorem Registers.registerAll_eq (complete : family.providers? = some providers)
    (derived : family.Derived) {registry result : Registry} {impls : List MessageImpl}
    (run : family.Registers registry impls result)
    (found : ∀ impl ∈ impls, family.own? impl.path = some impl) (rest : List String) :
    Registry.registerAll providers registry (impls.map MessageImpl.path ++ rest) =
      Registry.registerAll providers result rest := by
  induction run generalizing rest with
  | done => rfl
  | taken described refused _ ih =>
    obtain ⟨own, others⟩ := List.forall_mem_cons.mp found
    obtain ⟨provider, meant, made⟩ := exists_provider complete own
    obtain ⟨same, _, _⟩ := provider?_eq_some made
    obtain rfl := Option.some.inj (described.symm.trans same)
    rw [List.map_cons, List.cons_append, registerAll_of_taken meant refused, ih others]
  | added described accepted known _ _ inner later =>
    obtain ⟨own, others⟩ := List.forall_mem_cons.mp found
    obtain ⟨provider, meant, made⟩ := exists_provider complete own
    obtain ⟨same, _, successors, listed, dependencies⟩ := provider?_eq_some made
    obtain rfl := Option.some.inj (described.symm.trans same)
    obtain rfl := Option.some.inj (listed.symm.trans known)
    have each : ∀ next ∈ successors, family.own? next.path = some next := fun next member =>
      ((derived.mem_successors_iff (mem_of_own? own) known).mp member).own?
    rw [List.map_cons, List.cons_append, registerAll_of_added meant accepted, dependencies,
      inner each, later others]

end Search

end Family

end Redaction.Derivation

import Redaction.Proofs.Derivation.Closure

/-!
# Registrations into a builder that is not empty

A builder of registries takes descriptions that are added by hand and types that register
themselves, in any order. Registering a type passes over every name that is taken. So it leaves a
builder in which nothing below the type is missing if, and only if, no type was there before without
those to which it refers. Registrations keep it that way, and so does adding a description by hand
after those to which it refers.
-/

namespace Redaction

open Relation
open Schema (Message Provider Registry)

namespace Schema

/-- A call on a builder of registries. -/
inductive BuildCall where
  /-- A description is added by hand. If its name is taken the one that is there stays. -/
  | insert (message : Message)
  /-- The type that is meant by a word registers itself and whatever it refers to. -/
  | register (ident : String)

/-- The builder after a call. -/
def BuildCall.apply (providers : List Provider) (registry : Registry) : BuildCall → Registry
  | .insert message => registry.insert message
  | .register ident => Registry.registerAll providers registry [ident]

/-- The builder after some calls. -/
def Registry.afterCalls (providers : List Provider) (registry : Registry) (calls : List BuildCall) :
    Registry :=
  calls.foldl (BuildCall.apply providers) registry

/-- What a builder contains under a name without a dot at its start. -/
theorem Registry.contains_iff {registry : Registry} {name : String} (plain : ¬ Dotted name) :
    registry.contains name ↔ name ∈ registry.names := by
  rw [contains, withoutDot_eq_self plain, List.contains_iff_mem]

end Schema

namespace Derivation.Family

open Schema (BuildCall)

variable {family : Family} {impl next root : MessageImpl} {providers : List Provider}
  {registry result : Registry}

/-- Whether every type whose name is taken has the names of all types to which it refers taken as
well. Types that no word means are left out. -/
def Settled (family : Family) (registry : Registry) : Prop :=
  ∀ impl, family.own? impl.path = some impl → impl.typeName ∈ registry.names →
    ∀ next, family.Refers impl next → next.typeName ∈ registry.names

/-- Whether what stands under the name of a type of the family is the description of this type. -/
def Genuine (family : Family) (registry : Registry) : Prop :=
  ∀ message ∈ registry.messages, ∀ impl ∈ family.messages, impl.typeName = message.name →
    family.description? impl = some message

/-- Whether a registry contains all types that can be reached from a type. -/
def Whole (family : Family) (registry : Registry) (root : MessageImpl) : Prop :=
  ∀ impl, ReflTransGen family.Refers root impl → registry.contains impl.typeName

/-- Whether all types that can be reached from a type have their own descriptions under their names,
and each reference in these descriptions means a type. -/
def Resolved (family : Family) (registry : Registry) (root : MessageImpl) : Prop :=
  ∀ impl, ReflTransGen family.Refers root impl → ∃ message,
    family.description? impl = some message ∧ registry.get? impl.typeName = some message ∧
      ∀ field ∈ message.fields, ∀ reference ∈ field.reference?, (registry.get? reference).isSome

/-- Whether a call suits a builder: what is added by hand under the name of a type of the family is
the description of this type, and the types to which it refers, apart from itself, are there. -/
def Suits (family : Family) (registry : Registry) : BuildCall → Prop
  | .insert message => message.name ∉ registry.names →
      ∀ impl ∈ family.messages, impl.typeName = message.name →
        family.description? impl = some message ∧
          ∀ next, family.Refers impl next → next.typeName ∈ registry.names ∨ next = impl
  | .register _ => True

/-- Whether each of some calls suits the builder that it meets. -/
def AllSuit (family : Family) (providers : List Provider) : Registry → List BuildCall → Prop
  | _, [] => True
  | registry, call :: rest =>
    family.Suits registry call ∧ AllSuit family providers (call.apply providers registry) rest

/-- What is reached from a type that a word means is meant by a word as well. -/
theorem own?_of_reached {ident : String} (means : family.own? ident = some root)
    (path : ReflTransGen family.Refers root impl) : family.own? impl.path = some impl := by
  cases path with
  | refl => rwa [path_of_own? means]
  | tail _ step => exact step.own?

/-- In a settled builder the names of all types below a type that is there are taken. -/
theorem Settled.mem_names (settled : family.Settled registry) {ident : String}
    (means : family.own? ident = some root) (taken : root.typeName ∈ registry.names)
    (path : ReflTransGen family.Refers root impl) : impl.typeName ∈ registry.names := by
  induction path with
  | refl => exact taken
  | tail before step ih => exact settled _ (own?_of_reached means before) ih _ step

section Runs

variable {impls : List MessageImpl} (derived : family.Derived)
  (run : family.Registers registry impls result)
  (members : ∀ impl ∈ impls, impl ∈ family.messages)

include derived run members

/-- Registrations leave a settled builder settled: what they add they complete. -/
theorem Settled.registers (settled : family.Settled registry) : family.Settled result := by
  intro impl own taken next refers
  by_cases before : impl.typeName ∈ registry.names
  · exact run.mem_names (settled impl own before next refers)
  · have member := mem_of_own? own
    obtain ⟨message, present, described⟩ :=
      run.exists_description derived members member before taken
    rcases run.closed derived members member described present with early | closed
    · have named := derived.name_eq member described
      exact absurd (List.mem_map.mpr ⟨message, early, named⟩) before
    · exact closed next refers

/-- Registrations add no description under the name of another type. -/
theorem Genuine.registers (genuine : family.Genuine registry) : family.Genuine result := by
  intro message present impl member named
  rcases (run.mem_iff derived members message).mp present with
    before | ⟨root, among, owner, anew, described⟩
  · exact genuine message before impl member named
  · have belongs := mem_of_reached (members root among) anew.path
    have same : owner = impl := by
      refine List.inj_on_of_nodup_map derived.distinct belongs member ?_
      rw [← derived.name_eq belongs described, named]
    exact same ▸ described

end Runs

/-- Adding by hand what suits leaves a settled builder settled. -/
theorem Settled.insert? {message : Message} (suits : family.Suits registry (.insert message))
    (accepted : registry.insert? message = some result) (settled : family.Settled registry) :
    family.Settled result := by
  intro impl own taken next refers
  rw [mem_names_of_insert? accepted] at taken ⊢
  rcases taken with before | named
  · exact .inl (settled impl own before next refers)
  · have vacant := (Registry.insert?_eq_some_iff.mp accepted).1
    rcases (suits vacant impl (mem_of_own? own) named).2 next refers with there | rfl
    · exact .inl there
    · exact .inr named

/-- Adding by hand what suits puts no description under the name of another type. -/
theorem Genuine.insert? {message : Message} (suits : family.Suits registry (.insert message))
    (accepted : registry.insert? message = some result) (genuine : family.Genuine registry) :
    family.Genuine result := by
  intro other present impl member named
  have ⟨vacant, all⟩ := Registry.insert?_eq_some_iff.mp accepted
  rw [all, List.mem_append, List.mem_singleton] at present
  rcases present with before | rfl
  · exact genuine other before impl member named
  · exact (suits vacant impl member named).1

/-- A type that is registered by the word that means it starts a run. -/
theorem exists_run (complete : family.providers? = some providers) (derived : family.Derived)
    (registry : Registry) {ident : String} (means : family.own? ident = some root) :
    family.Registers registry [root] (BuildCall.apply providers registry (.register ident)) := by
  have members : ∀ impl ∈ [root], impl ∈ family.messages :=
    List.forall_mem_singleton.mpr (mem_of_own? means)
  have found : ∀ impl ∈ [root], family.own? impl.path = some impl :=
    List.forall_mem_singleton.mpr (by rwa [path_of_own? means])
  obtain ⟨final, run⟩ := exists_registers complete derived registry [root] members
  have arrives := run.registerAll_eq complete derived found []
  rw [List.append_nil, List.map_singleton, path_of_own? means] at arrives
  rw [BuildCall.apply, arrives, Registry.registerAll]
  exact run

/-- A word that means no type registers nothing. -/
theorem apply_register_of_unknown (complete : family.providers? = some providers)
    (registry : Registry) {ident : String} (unknown : family.own? ident = none) :
    BuildCall.apply providers registry (.register ident) = registry := by
  have missing : Provider.find? providers ident = none := by
    refine List.find?_eq_none.mpr fun provider among => ?_
    obtain ⟨impl, member, made⟩ :=
      exists_counterpart_left (forall₂_of_mapM complete fun _ _ => id) among
    rw [(provider?_eq_some made).2.1]
    exact List.find?_eq_none.mp unknown impl member
  rw [BuildCall.apply, Registry.registerAll]
  split
  · exact Registry.registerAll.eq_1 _ _
  · next found => cases missing.symm.trans found

/-- A call that suits a builder leaves it settled, with each description under its own name. -/
theorem apply_keeps (complete : family.providers? = some providers) (derived : family.Derived)
    {call : BuildCall} (suits : family.Suits registry call)
    (sound : family.Settled registry ∧ family.Genuine registry) :
    family.Settled (call.apply providers registry) ∧
      family.Genuine (call.apply providers registry) := by
  cases call with
  | insert message =>
    cases attempt : registry.insert? message with
    | none => rwa [BuildCall.apply, Registry.insert, attempt, Option.getD_none]
    | some larger =>
      rw [BuildCall.apply, Registry.insert, attempt, Option.getD_some]
      exact ⟨sound.1.insert? suits attempt, sound.2.insert? suits attempt⟩
  | register ident =>
    cases means : family.own? ident with
    | none => rwa [apply_register_of_unknown complete registry means]
    | some root =>
      have run := exists_run complete derived registry means
      have members := List.forall_mem_singleton.mpr (mem_of_own? means)
      exact ⟨sound.1.registers derived run members, sound.2.registers derived run members⟩

/-- Calls of which each suits the builder that it meets leave it settled, with each description
under its own name. -/
theorem afterCalls_keeps (complete : family.providers? = some providers) (derived : family.Derived)
    {calls : List BuildCall} (suit : family.AllSuit providers registry calls)
    (sound : family.Settled registry ∧ family.Genuine registry) :
    family.Settled (registry.afterCalls providers calls) ∧
      family.Genuine (registry.afterCalls providers calls) := by
  induction calls generalizing registry with
  | nil => exact sound
  | cons call rest ih =>
    obtain ⟨first, others⟩ := suit
    exact ih others (apply_keeps complete derived first sound)

/-- Below a type that is there, a settled builder with each description under its own name has all
types and means one by each reference. -/
theorem Settled.resolved (derived : family.Derived) (settled : family.Settled registry)
    (genuine : family.Genuine registry) {ident : String}
    (means : family.own? ident = some root) (taken : root.typeName ∈ registry.names) :
    family.Resolved registry root := by
  have named : ∀ impl, ReflTransGen family.Refers root impl → ∃ message,
      family.description? impl = some message ∧ registry.get? impl.typeName = some message := by
    intro impl path
    have member := mem_of_own? (own?_of_reached means path)
    obtain ⟨message, present, same⟩ := List.mem_map.mp (settled.mem_names means taken path)
    refine ⟨message, genuine message present impl member same.symm, ?_⟩
    rw [Registry.get?, Registry.withoutDot_eq_self (derived.plain impl member)]
    exact Registry.find?_eq_some_iff.mpr ⟨present, same⟩
  intro impl path
  obtain ⟨message, described, found⟩ := named impl path
  refine ⟨message, described, found, fun field declared reference written => ?_⟩
  obtain ⟨next, refers, rfl⟩ := exists_refers_of_description? described declared written
  obtain ⟨other, _, found⟩ := named next (path.tail refers)
  exact Option.isSome_iff_exists.mpr ⟨other, found⟩

/-- The registration of a type whose name is taken changes nothing. -/
theorem Registers.eq_of_taken (derived : family.Derived) (member : impl ∈ family.messages)
    (run : family.Registers registry [impl] result) (taken : impl.typeName ∈ registry.names) :
    result = registry := by
  cases run with
  | taken _ _ later =>
    cases later
    rfl
  | added described accepted =>
    have vacant := (Registry.insert?_eq_some_iff.mp accepted).1
    rw [derived.name_eq member described] at vacant
    exact absurd taken vacant

/-- After the registration of a type the builder contains all types below it, whatever the type, if
and only if it was settled before. -/
theorem settled_iff_whole (complete : family.providers? = some providers) (derived : family.Derived)
    (registry : Registry) :
    family.Settled registry ↔ ∀ ident root, family.own? ident = some root →
      family.Whole (BuildCall.apply providers registry (.register ident)) root := by
  have plain : ∀ {ident : String} {impl : MessageImpl}, family.own? ident = some impl →
      ¬ Registry.Dotted impl.typeName := fun means => derived.plain _ (mem_of_own? means)
  constructor
  · intro settled ident root means impl path
    have run := exists_run complete derived registry means
    have members := List.forall_mem_singleton.mpr (mem_of_own? means)
    have taken := run.taken_names derived members root (List.mem_singleton.mpr rfl)
    rw [Registry.contains_iff (plain (own?_of_reached means path))]
    exact (settled.registers derived run members).mem_names means taken path
  · intro whole impl own taken next refers
    -- a type whose name is taken adds nothing, so the builder itself is whole below it
    have run := exists_run complete derived registry own
    have same := run.eq_of_taken derived (mem_of_own? own) taken
    have there := whole impl.path impl own next (.single refers)
    rwa [same, Registry.contains_iff (plain refers.own?)] at there

/-- Whatever calls a builder has seen, registering a type of a derived family removes nothing and
adds exactly the types that can be reached from it through names that were vacant, so that the type
is there. All types below it are there too, whichever type it is, if and only if the builder was
settled before. If each call so far suited the builder that it met, which registrations always do,
all of them have their own descriptions, and each reference below the type means a type. -/
theorem register_adds_what_is_vacant {messages oneofs : List Item} {meaning : Meaning}
    (accepted : Family.derive messages oneofs meaning = .ok family)
    (words : ∀ item ∈ messages, '.' ∉ item.ident.toList)
    (complete : family.providers? = some providers)
    (distinct : (family.messages.map MessageImpl.typeName).Nodup) (calls : List BuildCall) :
    let builder := Registry.empty.afterCalls providers calls
    let registered ident := BuildCall.apply providers builder (.register ident)
    (∀ ident root, family.own? ident = some root → (registered ident).contains root.typeName ∧
      ∀ message, message ∈ (registered ident).messages ↔ message ∈ builder.messages ∨
        ∃ impl, family.ReachedAnew builder root impl ∧ family.description? impl = some message) ∧
      (family.Settled builder ↔ ∀ ident root, family.own? ident = some root →
        family.Whole (registered ident) root) ∧
      (family.AllSuit providers .empty calls → ∀ ident root, family.own? ident = some root →
        family.Resolved (registered ident) root) := by
  intro builder registered
  have derived := derived_of_derive accepted words distinct
  refine ⟨fun ident root means => ?_, settled_iff_whole complete derived builder,
    fun suit ident root means => ?_⟩
  all_goals
    have run := exists_run complete derived builder means
    have members := List.forall_mem_singleton.mpr (mem_of_own? means)
    have taken := run.taken_names derived members root (List.mem_singleton.mpr rfl)
  · refine ⟨(Registry.contains_iff (derived.plain root (mem_of_own? means))).mpr taken,
      fun message => ?_⟩
    rw [run.mem_iff derived members message]
    simp only [List.mem_singleton, exists_eq_left]
  · have start : family.Settled .empty ∧ family.Genuine .empty :=
      ⟨fun _ _ taken => absurd taken List.not_mem_nil, List.forall_mem_nil _⟩
    obtain ⟨settled, genuine⟩ := afterCalls_keeps complete derived suit start
    exact (settled.registers derived run members).resolved derived
      (genuine.registers derived run members) means taken

end Derivation.Family

namespace Derivation

open Schema (BuildCall)

/-- A type that belongs to no family. -/
def guestbook : Message := .empty "visitors.Book"

/-- In a builder that holds a foreign type and has registered files, folders still bring everything
below them with them. -/
theorem folder_after_guestbook :
    ∃ providers, Family.derive [folder, file] [content] = .ok store ∧
      store.providers? = some providers ∧
      let builder := Registry.empty.afterCalls providers [.insert guestbook, .register "File"]
      let registered := BuildCall.apply providers builder (.register "Folder")
      registered.contains folderImpl.typeName ∧ store.Resolved registered folderImpl := by
  have accepted : Family.derive [folder, file] [content] = .ok store := by with_unfolding_all rfl
  have complete : store.providers?.isSome := by decide
  obtain ⟨providers, complete⟩ := Option.isSome_iff_exists.mp complete
  refine ⟨providers, accepted, complete, ?_⟩
  intro builder registered
  have suit : store.AllSuit providers .empty [.insert guestbook, .register "File"] := by
    refine ⟨fun _ impl member named => ?_, trivial, trivial⟩
    have foreign : ∀ impl ∈ store.messages, impl.typeName ≠ guestbook.name := by decide
    exact absurd named (foreign impl member)
  obtain ⟨adds, _, resolves⟩ :=
    Family.register_adds_what_is_vacant accepted (by decide) complete (by decide)
      [.insert guestbook, .register "File"]
  exact ⟨(adds "Folder" folderImpl rfl).1, resolves suit "Folder" folderImpl rfl⟩

/-- The description of files, as it may be added by hand. -/
def fileMessage : Message :=
  .ofDeclarations "store.File"
    [.field { name := "parents", kind := .message "Folder", cardinality := .repeated }]

/-- Once the description of files has been added by hand, registering files adds nothing: the
folders to which files refer are not there. -/
theorem file_by_hand_leaves_folder_out :
    ∃ providers, Family.derive [folder, file] [content] = .ok store ∧
      store.providers? = some providers ∧ store.description? fileImpl = some fileMessage ∧
      store.own? "File" = some fileImpl ∧ store.Refers fileImpl folderImpl ∧
      let builder := Registry.empty.afterCalls providers [.insert fileMessage]
      let registered := BuildCall.apply providers builder (.register "File")
      registered.contains folderImpl.typeName = false ∧ ¬ store.Whole registered fileImpl := by
  have accepted : Family.derive [folder, file] [content] = .ok store := by with_unfolding_all rfl
  have complete : store.providers?.isSome := by decide
  obtain ⟨providers, complete⟩ := Option.isSome_iff_exists.mp complete
  have own : store.own? "File" = some fileImpl := rfl
  have refers : store.Refers fileImpl folderImpl :=
    ⟨_, List.mem_singleton.mpr rfl, .field rfl⟩
  refine ⟨providers, accepted, complete, by decide, own, refers, ?_⟩
  intro builder registered
  have derived := Family.derived_of_derive accepted (by decide) (by decide)
  have run := Family.exists_run complete derived builder own
  have taken : fileImpl.typeName ∈ (Registry.empty.insert fileMessage).names := by decide
  have same : registered = builder := run.eq_of_taken derived (Family.mem_of_own? own) taken
  have missing : registered.contains folderImpl.typeName = false := by
    have alone : (Registry.empty.insert fileMessage).contains folderImpl.typeName = false := by
      decide
    exact same ▸ alone
  refine ⟨missing, fun whole => ?_⟩
  have there := whole folderImpl (.single refers)
  exact Bool.false_ne_true (missing.symm.trans there)

end Derivation

end Redaction

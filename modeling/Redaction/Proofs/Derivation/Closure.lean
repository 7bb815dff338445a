import Redaction.Catalogue.Basic
import Redaction.Proofs.Derivation.Vacant
import Redaction.Schema.Cache

/-!
# Registries of derived message types

The registry that arises from registering some types of a family holds exactly the types that can be
reached from them, each with its own description under its own name. So every reference in it means
a type, and neither the order of the registrations nor what was asked for before makes a difference.
-/

namespace Redaction.Derivation

open Relation
open Schema (Cache Message Provider Registry TypeKey)

namespace Family

variable {family : Family} {impl : MessageImpl} {providers : List Provider}

/-- The types of the family that are meant by some types of a program. -/
def roots (family : Family) (keys : List TypeKey) : List MessageImpl :=
  keys.filterMap fun key => family.own? key.ident

/-- Whether a type can be reached from some types of a program, through message fields and the
alternatives of groups. -/
def Reached (family : Family) (keys : List TypeKey) (impl : MessageImpl) : Prop :=
  ∃ root ∈ family.roots keys, ReflTransGen family.Refers root impl

/-- What makes a registry the closure of some types of a program. -/
structure IsClosure (family : Family) (keys : List TypeKey) (registry : Registry) : Prop where
  /-- It holds the descriptions of the types that can be reached, and nothing else. -/
  mem_iff : ∀ message, message ∈ registry.messages ↔
    ∃ impl, family.Reached keys impl ∧ family.description? impl = some message
  /-- Each of these types has its own description under its own name. -/
  named : ∀ impl, family.Reached keys impl → ∃ message, family.description? impl = some message ∧
    message.name = impl.typeName ∧ registry.get? impl.typeName = some message
  /-- Each reference means a type. -/
  resolves : ∀ message ∈ registry.messages, ∀ field ∈ message.fields,
    ∀ reference ∈ field.reference?, (registry.get? reference).isSome
  /-- The search for secrets misses no type. -/
  whole : ∀ message ∈ registry.messages, (registry.reach message.name).unresolved = false

/-- What the family has for some types of a program belongs to it. -/
theorem mem_of_roots {keys : List TypeKey} :
    ∀ impl ∈ family.roots keys, impl ∈ family.messages := by
  intro impl among
  obtain ⟨key, _, found⟩ := List.mem_filterMap.mp among
  exact mem_of_own? found

/-- The registry of a run from nothing is the closure of the types that were to be registered. -/
theorem Registers.isClosure (derived : family.Derived) {keys : List TypeKey} {registry : Registry}
    (run : family.Registers .empty (family.roots keys) registry) :
    family.IsClosure keys registry := by
  have member : ∀ impl, family.Reached keys impl → impl ∈ family.messages :=
    fun impl ⟨root, among, path⟩ => mem_of_reached (mem_of_roots root among) path
  -- no name was taken before, so every path counts
  have mem_iff : ∀ message, message ∈ registry.messages ↔
      ∃ impl, family.Reached keys impl ∧ family.description? impl = some message := by
    intro message
    rw [run.mem_iff derived mem_of_roots message]
    constructor
    · rintro (before | ⟨root, among, impl, anew, described⟩)
      · cases before
      · exact ⟨impl, ⟨root, among, anew.path⟩, described⟩
    · rintro ⟨impl, ⟨root, among, path⟩, described⟩
      exact .inr ⟨root, among, impl, .of_path path, described⟩
  have named : ∀ impl, family.Reached keys impl → ∃ message,
      family.description? impl = some message ∧ message.name = impl.typeName ∧
        registry.get? impl.typeName = some message := by
    intro impl reached
    have belongs := member impl reached
    obtain ⟨root, among, path⟩ := reached
    obtain ⟨message, present, described⟩ :=
      run.holds_reached derived mem_of_roots among (.of_path path)
    have same := derived.name_eq belongs described
    refine ⟨message, described, same, ?_⟩
    rw [Registry.get?, Registry.withoutDot_eq_self (derived.plain impl belongs)]
    exact Registry.find?_eq_some_iff.mpr ⟨present, same⟩
  have resolves : ∀ message ∈ registry.messages, ∀ field ∈ message.fields,
      ∀ reference ∈ field.reference?, (registry.get? reference).isSome := by
    intro message present field declared reference written
    obtain ⟨impl, ⟨root, among, path⟩, described⟩ := (mem_iff message).mp present
    obtain ⟨next, refers, rfl⟩ := exists_refers_of_description? described declared written
    obtain ⟨other, _, _, found⟩ := named next ⟨root, among, path.tail refers⟩
    exact Option.isSome_iff_exists.mpr ⟨other, found⟩
  exact ⟨mem_iff, named, resolves, fun _ => Registry.unresolved_eq_false_of_resolves resolves⟩

/-- Types that are all known have the paths with which they are registered. -/
theorem map_path_roots {keys : List TypeKey}
    (known : ∀ key ∈ keys, (family.own? key.ident).isSome) :
    (family.roots keys).map MessageImpl.path = keys.map TypeKey.ident := by
  induction keys with
  | nil => rfl
  | cons key rest ih =>
    obtain ⟨here, others⟩ := List.forall_mem_cons.mp known
    obtain ⟨impl, found⟩ := Option.isSome_iff_exists.mp here
    rw [roots, List.filterMap_cons, found, List.map_cons, List.map_cons, path_of_own? found]
    exact congrArg _ (ih others)

/-- The registrations of any types of a program come to an end, with the registry that the search
through the providers has as its result and no other. -/
theorem Derived.registers_iff (derived : family.Derived)
    (complete : family.providers? = some providers) {keys : List TypeKey}
    (known : ∀ key ∈ keys, (family.own? key.ident).isSome) (result : Registry) :
    family.Registers .empty (family.roots keys) result ↔
      result = Registry.registerAll providers .empty (keys.map TypeKey.ident) := by
  have found : ∀ impl ∈ family.roots keys, family.own? impl.path = some impl := by
    intro impl among
    obtain ⟨key, _, meant⟩ := List.mem_filterMap.mp among
    rwa [path_of_own? meant]
  have ends : ∀ final, family.Registers .empty (family.roots keys) final →
      final = Registry.registerAll providers .empty (keys.map TypeKey.ident) := by
    intro final run
    have arrives := run.registerAll_eq complete derived found []
    rw [map_path_roots known, List.append_nil] at arrives
    rw [arrives, Registry.registerAll]
  refine ⟨ends result, ?_⟩
  rintro rfl
  obtain ⟨final, run⟩ := exists_registers complete derived .empty (family.roots keys) mem_of_roots
  exact ends final run ▸ run

/-- The registrations of any types of a derived family come to an end. The registry is then the
closure of these types; other orders and repetitions lead to the same descriptions. A program that
asks for the registry of one of the types gets its closure, whatever it has asked for before. -/
theorem registry_eq_closure {messages oneofs : List Item} {meaning : Meaning}
    (accepted : Family.derive messages oneofs meaning = .ok family)
    (words : ∀ item ∈ messages, '.' ∉ item.ident.toList)
    (complete : family.providers? = some providers)
    (distinct : (family.messages.map MessageImpl.typeName).Nodup) {keys : List TypeKey}
    (known : ∀ key ∈ keys, (family.own? key.ident).isSome) :
    let registry := Registry.registerAll providers .empty (keys.map TypeKey.ident)
    (∀ result, family.Registers .empty (family.roots keys) result ↔ result = registry) ∧
      family.IsClosure keys registry ∧
      (∀ others : List TypeKey, (∀ key, key ∈ others ↔ key ∈ keys) →
        (Registry.registerAll providers .empty (others.map TypeKey.ident)).messages.Perm
          registry.messages) ∧
      ∀ earlier, ∀ key ∈ keys,
        family.IsClosure [key] ((Cache.after providers earlier).request providers key).1 := by
  intro registry
  have derived := derived_of_derive accepted words distinct
  have ends := derived.registers_iff complete known
  have closure : ∀ chosen : List TypeKey, (∀ key ∈ chosen, key ∈ keys) →
      family.IsClosure chosen
        (Registry.registerAll providers .empty (chosen.map TypeKey.ident)) := by
    intro chosen among
    have meant : ∀ key ∈ chosen, (family.own? key.ident).isSome :=
      fun key present => known key (among key present)
    exact ((derived.registers_iff complete meant _).mpr rfl).isClosure derived
  refine ⟨ends, closure keys fun _ => id, fun others same => ?_, fun earlier key among => ?_⟩
  · have other := closure others fun key => (same key).mp
    have own := closure keys fun _ => id
    have reached : ∀ impl, family.Reached others impl ↔ family.Reached keys impl := by
      intro impl
      simp only [Reached, roots, List.mem_filterMap, same]
    have nodup : ∀ registry : Registry, registry.messages.Nodup := fun registry =>
      .of_map _ registry.distinct
    refine (List.perm_ext_iff_of_nodup (nodup _) (nodup _)).mpr fun message => ?_
    rw [other.mem_iff, own.mem_iff]
    exact exists_congr fun impl => and_congr_left fun _ => reached impl
  · rw [(Cache.fresh_after earlier).fst_request key]
    exact closure [key] fun _ single => List.mem_singleton.mp single ▸ among

end Family

/-- The declaration of folders, which hold other folders in boxes. -/
def folder : Item :=
  Catalogue.message "Folder" []
    [Catalogue.field "folders"
        (Catalogue.mapOf Catalogue.string (Catalogue.boxed (.named "Folder"))),
      Catalogue.field "content" (Catalogue.optional (.named "Content")) [Catalogue.mark "oneof"]]

/-- The declaration of files, which lie in folders. -/
def file : Item :=
  Catalogue.message "File" [Catalogue.setting "package" "store"]
    [Catalogue.field "parents" (Catalogue.listOf (.named "Folder"))]

/-- The declaration of what a folder holds besides other folders. -/
def content : Item :=
  Catalogue.group "Content"
    [Catalogue.alternative "Note" Catalogue.string,
      Catalogue.alternative "File" (Catalogue.boxed (.named "File"))]

/-- What is derived from the declaration of folders. -/
def folderImpl : MessageImpl where
  ident := "Folder"
  typeName := "Folder"
  calls :=
    [.field
        { name := "folders", kind := .message (.named "Folder"), cardinality := .map
          secret := false },
      .oneof "content" (.named "Content") false]
  registrations := [.message (.named "Folder"), .alternatives (.named "Content")]

/-- What is derived from the declaration of files. -/
def fileImpl : MessageImpl where
  ident := "File"
  typeName := "store.File"
  calls :=
    [.field
        { name := "parents", kind := .message (.named "Folder"), cardinality := .repeated
          secret := false }]
  registrations := [.message (.named "Folder")]

/-- What is derived from the declaration of the content. -/
def contentImpl : OneofImpl where
  ident := "Content"
  alternatives :=
    [{ name := "note", kind := .scalar, cardinality := .singular, secret := false },
      { name := "file", kind := .message (.named "File"), cardinality := .singular
        secret := false }]
  registrations := [.named "File"]

/-- The family of folders, files and their content. -/
def store : Family where
  messages := [folderImpl, fileImpl]
  oneofs := [contentImpl]

/-- Folders and files lead to each other. Registering files twice and folders in boxes gives the
closure of both, and whoever asks for the registry of folders in boxes gets the closure of these. -/
theorem store_registry_eq_closure :
    ∃ providers, Family.derive [folder, file] [content] = .ok store ∧
      store.providers? = some providers ∧
      let keys : List TypeKey := [⟨"File", 0⟩, ⟨"Folder", 1⟩, ⟨"File", 0⟩]
      store.IsClosure keys (Registry.registerAll providers .empty (keys.map TypeKey.ident)) ∧
        ∀ earlier, store.IsClosure [⟨"Folder", 1⟩]
          ((Cache.after providers earlier).request providers ⟨"Folder", 1⟩).1 := by
  have accepted : Family.derive [folder, file] [content] = .ok store := by with_unfolding_all rfl
  have complete : store.providers?.isSome := by decide
  obtain ⟨providers, complete⟩ := Option.isSome_iff_exists.mp complete
  refine ⟨providers, accepted, complete, ?_⟩
  intro keys
  have known : ∀ key ∈ keys, (store.own? key.ident).isSome := by decide
  obtain ⟨_, closure, _, requests⟩ :=
    Family.registry_eq_closure accepted (by decide) complete (by decide) known
  exact ⟨closure, fun earlier => requests earlier ⟨"Folder", 1⟩ (by decide)⟩

/-- A shelf and a book in one of the modules `attic` and `cellar`. The shelf holds books. -/
def furnished (place : String) : List Item :=
  [{ Catalogue.message "Shelf" [Catalogue.setting "package" place]
        [Catalogue.field "books" (Catalogue.listOf (.named "Book"))] with
      path := place ++ "::Shelf" },
    { Catalogue.message "Book" [Catalogue.setting "package" place]
        [Catalogue.field "title" Catalogue.string] with
      path := place ++ "::Book" }]

/-- In each of the two modules a name means what the module itself declares. -/
def withinModule : Meaning := fun site type =>
  (Meaning.byName site type).map fun name =>
    (if site = "attic::Shelf" then "attic::" else "cellar::") ++ name

-- two declarations share a name, and each shelf leads to the book of its own module
example : ((Family.derive (furnished "attic" ++ furnished "cellar") [] withinModule).toOption.bind
    Family.providers?).map (fun providers =>
      ["attic::Shelf", "cellar::Shelf"].map fun path =>
        (Registry.registerAll providers .empty [path]).messages.map Message.name) =
    some [["attic.Shelf", "attic.Book"], ["cellar.Shelf", "cellar.Book"]] := by
  cbv

end Redaction.Derivation

import Redaction.Catalogue.Basic
import Redaction.Proofs.Derivation.Reads
import Redaction.Proofs.Walk.Conforming
import Redaction.Sanitizer.Basic

/-!
# Derived schemas describe the data of their types

Whatever data the value of a message type hands over, its tree conforms to the schema that is
derived from the type. So sanitizing it meets no problem, in any configuration, and nothing in it is
taken for unknown.
-/

namespace Redaction

open Schema (Cache Message Provider Registry)

namespace Derivation

open Serial (Data)

namespace Family

variable {program : Program} {family : Family} {keys : List Schema.TypeKey} {registry : Registry}
  {message : Message}

section Registry

variable (derived : family.Derived) (closure : family.IsClosure keys registry)

include closure

/-- A description in the registry is that of a type of the family. -/
theorem exists_impl (present : message ∈ registry.messages) :
    ∃ impl ∈ family.messages, family.description? impl = some message := by
  obtain ⟨impl, ⟨root, among, path⟩, described⟩ := (closure.mem_iff message).mp present
  exact ⟨impl, mem_of_reached (mem_of_roots root among) path, described⟩

/-- In the registry of derived types no key belongs to two fields. -/
theorem wellNamed_of_closure {messages oneofs : List Item} {meaning : Meaning}
    (accepted : Family.derive messages oneofs meaning = .ok family) : registry.WellNamed := by
  intro message present
  obtain ⟨impl, member, described⟩ := exists_impl closure present
  obtain ⟨impls, first, derived⟩ := bind_eq_ok_iff.mp accepted
  obtain ⟨groups, second, derived⟩ := bind_eq_ok_iff.mp derived
  obtain rfl := Except.ok.inj derived
  obtain ⟨item, _, made⟩ := exists_of_mem_mapM first member
  exact wellNamed_of_derive accepted made described

include derived

/-- In the registry of derived types no name keeps a dot. -/
theorem undotted_of_closure : registry.Undotted := by
  constructor
  · intro message present
    obtain ⟨impl, member, described⟩ := exists_impl closure present
    rw [derived.name_eq member described]
    exact derived.plain impl member
  · intro message present field declared typeName refers
    obtain ⟨impl, _, described⟩ := exists_impl closure present
    obtain ⟨reference, written, rfl⟩ := Option.map_eq_some_iff.mp refers
    obtain ⟨next, leads, rfl⟩ := exists_refers_of_description? described declared written
    have plain := derived.plain next (mem_of_own? leads.own?)
    rwa [Registry.withoutDot_eq_self plain]

end Registry

/-- A derived schema describes the data of its type. Whatever data a value of a message type hands
over, wherever the type is written, if it has a tree, the tree conforms to the registry of the type,
whatever was asked for before: all keys in it are declared and all values fit. So in every
configuration exactly the secrets are taken out, and nothing is logged. -/
theorem data_conforms_to_derived_schema {providers : List Provider}
    (accepted : Family.derive program.messages program.oneofs program.meaning = .ok family)
    (regular : program.Regular) (complete : family.providers? = some providers)
    (distinct : (family.messages.map MessageImpl.typeName).Nodup) {root : MessageImpl}
    {site : String} {spelled : TypeExpr} (means : family.message? site spelled = some root)
    {data : Data} (holds : program.Holds site spelled data) {tree : Tree}
    (serializes : data.toTree = .ok tree) (earlier : List Schema.TypeKey) (boxes : Nat) :
    let registry := ((Cache.after providers earlier).request providers ⟨root.path, boxes⟩).1
    ∃ type, family.description? root = some type ∧ registry.get? root.typeName = some type ∧
      ∀ (config : Config) (additional : AdditionalNames),
        let policy : Policy := ⟨config.secretSuffix, additional⟩
        let message : TypedMessage := ⟨root.typeName, registry, data⟩
        registry.Conforms policy (.message type) tree ∧
          config.redact additional message =
            .ok ⟨registry.censor policy (.message type) tree, []⟩ ∧
          (config.sanitize additional message).events = [] ∧
          (config.sanitizeToJson additional message).events = [] := by
  intro registry
  have derived := derived_of_derive accepted regular.words distinct
  have own := own?_of_message? means
  have closure : family.IsClosure [⟨root.path, boxes⟩] registry := by
    have known : ∀ key ∈ [(⟨root.path, boxes⟩ : Schema.TypeKey)],
        (family.own? key.ident).isSome :=
      List.forall_mem_singleton.mpr (Option.isSome_iff_exists.mpr ⟨root, own⟩)
    have run := (derived.registers_iff complete known _).mpr rfl
    have fresh : registry = Registry.registerAll providers .empty [root.path] :=
      (Cache.fresh_after earlier).fst_request ⟨root.path, boxes⟩
    rw [fresh]
    exact run.isClosure derived
  have reached : family.Reached [⟨root.path, boxes⟩] root :=
    ⟨root, List.mem_filterMap.mpr ⟨_, List.mem_singleton.mpr rfl, own⟩, .refl⟩
  obtain ⟨type, described, _, resolved⟩ := closure.named root reached
  have named := wellNamed_of_closure closure accepted
  have undotted := undotted_of_closure derived closure
  obtain ⟨json, written, done⟩ := bind_eq_ok_iff.mp serializes
  obtain rfl := Except.ok.inj done
  refine ⟨type, described, resolved, fun config additional => ?_⟩
  intro policy message
  have bare : spelled.unwrapped = spelled := by
    obtain ⟨item, meant, _⟩ :=
      Schema.exists_of_rel_some_right (rel_message? accepted site spelled) means
    exact (regular.shape_of_message? meant).1
  have reads : family.Reads [⟨root.path, boxes⟩] registry policy site spelled json :=
    reads_of_holds accepted regular derived closure named holds written
  have conforms := reads.single root type reached described (by rwa [bare])
  have safe := Walker.skipsHarmless_ofConfig config additional undotted
  have walked : (Walker.ofConfig registry config additional).walkRoot root.typeName (.ofJson json) =
      pure (registry.censor policy (.message type) (.ofJson json)) :=
    Walker.walkRoot_eq_censor named undotted safe resolved conforms
  have redacted : config.redact additional message =
      .ok ⟨registry.censor policy (.message type) (.ofJson json), []⟩ := by
    simp only [Config.redact, message, serializes, Config.redactTree, walked]
    rfl
  refine ⟨conforms, redacted, ?_, ?_⟩
  · rw [Config.sanitize, redacted]
  · rw [Config.sanitizeToJson, redacted]

end Family

section Trip

open Catalogue

/-- The declaration of a trip, with a list of optional messages, a boxed group, secret bytes, a
value that is optional twice, and a map of trips. -/
def trip : Item :=
  Catalogue.message "Trip" [setting "package" "travel.v1"]
    [field "stops" (listOf (optional (.named "Stop"))),
      field "ticket" (optional (boxed (.named "Ticket"))) [mark "oneof"],
      field "code" bytes [mark "secret"],
      field "r#type" (optional (optional string)),
      field "plans" (mapOf string (optional (boxed (.named "Trip"))))]

/-- The declaration of a stop. -/
def stop : Item := Catalogue.message "Stop" [] [field "city" string]

/-- The declaration of a ticket. -/
def ticket : Item :=
  Catalogue.group "Ticket"
    [alternative "Paper" string, alternative "ForStop" (optional (.named "Stop"))]

/-- The program of trips. -/
def travel : Program where
  messages := [trip, stop]
  oneofs := [ticket]

/-- The data of a stop. -/
def paris : Data := stop.record [.json (.string "Paris")]

/-- The data of a trip without anything. -/
def nowhere : Data :=
  trip.record [.sequence [], .nothing, .sequence [], .present .nothing, .map []]

/-- The data of a trip with a stop, a missing one, a ticket for a stop, and a plan to stay. -/
def journey : Data :=
  trip.record
    [.sequence [.present paris, .nothing], .present (.labelled "for_stop" (.present paris)),
      .sequence [.integer 7], .nothing, .map [(.json (.string "next"), .present nowhere)]]

/-- What is derived from the declaration of a trip. -/
def tripImpl : MessageImpl where
  ident := "Trip"
  typeName := "travel.v1.Trip"
  calls :=
    [.field { name := "stops", kind := .message (.named "Stop"), cardinality := .repeated
              secret := false },
      .oneof "ticket" (.named "Ticket") false,
      .field { name := "code", kind := .scalar, cardinality := .singular, secret := true },
      .field { name := "type", kind := .scalar, cardinality := .singular, secret := false },
      .field { name := "plans", kind := .message (.named "Trip"), cardinality := .map
               secret := false }]
  registrations :=
    [.message (.named "Stop"), .alternatives (.named "Ticket"), .message (.named "Trip")]

/-- What is derived from the declaration of a stop. -/
def stopImpl : MessageImpl where
  ident := "Stop"
  typeName := "Stop"
  calls :=
    [.field { name := "city", kind := .scalar, cardinality := .singular, secret := false }]
  registrations := []

/-- What is derived from the declaration of a ticket. -/
def ticketImpl : OneofImpl where
  ident := "Ticket"
  alternatives :=
    [{ name := "paper", kind := .scalar, cardinality := .singular, secret := false },
      { name := "for_stop", kind := .message (.named "Stop"), cardinality := .singular
        secret := false }]
  registrations := [.named "Stop"]

/-- The family of trips. -/
def travelFamily : Family where
  messages := [tripImpl, stopImpl]
  oneofs := [ticketImpl]

section Words

variable {site : String} {type : TypeExpr} {data : Data}

/-- A value of an optional type may be absent. -/
theorem holds_absent (type : TypeExpr) : travel.Holds site (optional type) .nothing :=
  .absent (TypeExpr.typeArgument?_applied "Option" [type] 0)

/-- A value of an optional type may be present. -/
theorem holds_present (inside : travel.Holds site type data) :
    travel.Holds site (optional type) (.present data) :=
  .present (TypeExpr.typeArgument?_applied "Option" [type] 0) inside

/-- A boxed value hands over what is in the box. -/
theorem holds_boxed (inside : travel.Holds site type data) : travel.Holds site (boxed type) data :=
  .boxed (TypeExpr.typeArgument?_applied "Box" [type] 0) inside

/-- A list hands over its items. -/
theorem holds_list {items : List Data} (each : ∀ data ∈ items, travel.Holds site type data) :
    travel.Holds site (listOf type) (.sequence items) :=
  .list (TypeExpr.typeArgument?_applied "Vec" [type] 0) each

/-- A map hands over its entries. -/
theorem holds_map {entries : List (Data × Data)}
    (each : ∀ entry ∈ entries, travel.Holds site type entry.2) :
    travel.Holds site (mapOf string type) (.map entries) :=
  .map rfl each

/-- A trip hands over what its fields do. -/
theorem holds_trip {stops ticket code type plans : Data}
    (first : travel.Holds trip.path (listOf (optional (.named "Stop"))) stops)
    (second : travel.Holds trip.path (optional (boxed (.named "Ticket"))) ticket)
    (third : travel.Holds trip.path bytes code)
    (fourth : travel.Holds trip.path (optional (optional string)) type)
    (fifth : travel.Holds trip.path (mapOf string (optional (boxed (.named "Trip")))) plans) :
    travel.Holds site (.named "Trip") (trip.record [stops, ticket, code, type, plans]) :=
  have meant : travel.message? site (.named "Trip") = some trip := rfl
  .message meant rfl (List.forall_mem_cons.mpr ⟨first, List.forall_mem_cons.mpr
    ⟨second, List.forall_mem_cons.mpr ⟨third, List.forall_mem_cons.mpr ⟨fourth,
      List.forall_mem_singleton.mpr fifth⟩⟩⟩⟩)

/-- A stop hands over its data. -/
theorem holds_paris : travel.Holds site (.named "Stop") paris :=
  have meant : travel.message? site (.named "Stop") = some stop := rfl
  .message meant rfl
    (List.forall_mem_singleton.mpr (.foreign ⟨rfl, rfl, rfl, rfl, rfl⟩ _))

end Words

/-- A ticket for a stop hands over its data. -/
theorem holds_forStop {site : String} :
    travel.Holds site (.named "Ticket") (.labelled "for_stop" (.present paris)) := by
  let variant : Variant := alternative "ForStop" (optional (.named "Stop"))
  have key : variant.key = "for_stop" := by decide +kernel
  rw [← key]
  have meant : travel.oneof? site (.named "Ticket") = some ticket := rfl
  exact .group meant rfl (List.mem_cons_of_mem _ List.mem_cons_self) rfl
    (holds_present holds_paris) nofun

/-- A trip without anything hands over its data. -/
theorem holds_nowhere {site : String} : travel.Holds site (.named "Trip") nowhere :=
  holds_trip (holds_list (List.forall_mem_nil _)) (holds_absent _)
    (holds_list (List.forall_mem_nil _)) (holds_present (holds_absent _))
    (holds_map (List.forall_mem_nil _))

/-- A trip with everything hands over its data. -/
theorem holds_journey {site : String} : travel.Holds site (.named "Trip") journey := by
  have stops : ∀ data ∈ [Data.present paris, .nothing],
      travel.Holds trip.path (optional (.named "Stop")) data :=
    List.forall_mem_cons.mpr
      ⟨holds_present holds_paris, List.forall_mem_singleton.mpr (holds_absent _)⟩
  have code : ∀ data ∈ [Data.integer 7], travel.Holds trip.path (.named "u8") data :=
    List.forall_mem_singleton.mpr (.foreign ⟨rfl, rfl, rfl, rfl, rfl⟩ _)
  have plans : ∀ entry ∈ [(Data.json (.string "next"), Data.present nowhere)],
      travel.Holds trip.path (optional (boxed (.named "Trip"))) entry.2 :=
    List.forall_mem_singleton.mpr (holds_present (holds_boxed holds_nowhere))
  exact holds_trip (holds_list stops) (holds_present (holds_boxed holds_forStop)) (holds_list code)
    (holds_absent _) (holds_map plans)

/-- The tree of the trip: what is absent is left out, except from the list of stops. -/
def journeyTree : Tree :=
  .object [("code", .list [.number (.integer ⟨7, by decide, by decide⟩)]),
    ("plans", .object [("next", .object [("code", .list []), ("plans", .object []),
      ("stops", .list [])])]),
    ("stops", .list [.object [("city", .string "Paris")], .null]),
    ("ticket", .object [("for_stop", .object [("city", .string "Paris")])])]

/-- The tree of the trip conforms to the derived schema. Where unknown data is dropped and whatever
does not fit is taken out, only the secrets go. -/
theorem journey_conforms :
    ∃ providers, Family.derive travel.messages travel.oneofs = .ok travelFamily ∧
      travelFamily.providers? = some providers ∧ journey.toTree = .ok journeyTree ∧
      let registry := ((Cache.after providers [⟨"Stop", 0⟩]).request providers ⟨"Trip", 1⟩).1
      ∃ type, registry.get? "travel.v1.Trip" = some type ∧
        registry.Conforms ⟨none, .empty⟩ (.message type) journeyTree ∧
        Config.redact { unknownFields := .drop } .empty ⟨"travel.v1.Trip", registry, journey⟩ =
          .ok ⟨registry.censor ⟨none, .empty⟩ (.message type) journeyTree, []⟩ := by
  have accepted : Family.derive travel.messages travel.oneofs = .ok travelFamily := by
    with_unfolding_all rfl
  have complete : travelFamily.providers?.isSome := by decide
  have serializes : journey.toTree = .ok journeyTree := by decide +kernel
  obtain ⟨providers, complete⟩ := Option.isSome_iff_exists.mp complete
  have regular : travel.Regular :=
    .byName (by decide) (by decide) (by decide) (by decide +kernel)
  have means : travelFamily.message? "" (.named "Trip") = some tripImpl := rfl
  obtain ⟨type, _, resolved, each⟩ :=
    Family.data_conforms_to_derived_schema accepted regular complete (by decide) means
      holds_journey serializes [⟨"Stop", 0⟩] 1
  obtain ⟨conforms, redacted, _, _⟩ := each { unknownFields := .drop } .empty
  exact ⟨providers, accepted, complete, serializes, type, resolved, conforms, redacted⟩

end Trip

end Derivation

end Redaction

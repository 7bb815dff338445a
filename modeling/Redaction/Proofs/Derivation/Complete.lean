import Redaction.Catalogue.Basic
import Redaction.Proofs.Derivation.Declares

/-!
# Derived descriptions are complete

The description that is derived from a struct has one call for each field that is not left out, in
the order of the fields and under their names. The description that is derived from an enumeration
has one alternative for each variant. In both, exactly the types that are mentioned are registered,
so that a description and its registrations keep in step.
-/

namespace Redaction.Derivation

open Schema (Cardinality Declaration Field Message)
open Schema.Registry (Dotted)

/-- What a parser knows of a name: there is something behind its mark, and it holds no dot. -/
structure IsName (ident : String) : Prop where
  /-- Without its mark the name is not empty. -/
  solid : plainIdent ident ≠ ""
  /-- The name holds no dot. -/
  word : '.' ∉ ident.toList

instance (ident : String) : Decidable (IsName ident) :=
  decidable_of_iff (plainIdent ident ≠ "" ∧ '.' ∉ ident.toList)
    ⟨fun holds => ⟨holds.1, holds.2⟩, fun name => ⟨name.solid, name.word⟩⟩

namespace FieldOptions

/-- Whether the name, if there is one, is not empty. -/
def Sound (options : FieldOptions) : Prop := options.name ≠ some ""

/-- The options that the attributes of a field give are sound. -/
theorem sound_of_ofAttributes {attributes : List Attribute} {options : FieldOptions}
    (read : ofAttributes attributes = .ok options) : options.Sound := by
  obtain ⟨words, _, fits, rfl⟩ := readsSet_ofAttributes.accepts.mp read
  exact fun empty => fits.named (mem_of_name_ofWords empty)

/-- The key of a field is not empty. -/
theorem Sound.key_ne {options : FieldOptions} (sound : options.Sound) {field : NamedField}
    (solid : plainIdent field.ident ≠ "") : options.key field ≠ "" := by
  rw [key]
  cases given : options.name with
  | none => exact solid
  | some name =>
    rintro rfl
    exact sound given

end FieldOptions

section Names

variable {calls : List BuilderCall} {declarations : List Declaration} (typeName : String)
  (declares : List.Forall₂ BuilderCall.Declares calls declarations)

/-- The plain fields that are declared go by names of the calls, in the order of the calls. -/
theorem plainNames_sublist (declares : List.Forall₂ BuilderCall.Declares calls declarations) :
    (((declarations.flatMap Declaration.fields).filter fun field => field.group.isNone).map
      Field.name).Sublist (calls.map BuilderCall.name) := by
  induction declares with
  | nil => exact .slnil
  | @cons call declaration calls declarations here _ ih =>
    rw [List.flatMap_cons, List.filter_append, List.map_append, List.map_cons]
    cases here with
    | field denotes => exact ih.cons_cons _
    | oneof group type secret alternatives =>
      have none : (Declaration.oneof group
          (if secret then alternatives.map Field.secret else alternatives)).fields.filter
          (fun field => field.group.isNone) = [] := by
        refine List.filter_eq_nil_iff.mpr fun field present single => ?_
        obtain ⟨_, _, rfl⟩ := List.mem_map.mp present
        cases single
      rw [none, List.map_nil, List.nil_append]
      exact ih.cons _

include declares

/-- A group of the description has a call. -/
theorem exists_of_mem_groups {group : String}
    (listed : group ∈ (Message.ofDeclarations typeName declarations).groups) :
    ∃ type secret, .oneof group type secret ∈ calls := by
  rw [(Message.ofDeclarations_spec typeName declarations).2.2] at listed
  obtain ⟨declaration, present, inside⟩ := List.mem_flatMap.mp listed
  obtain ⟨call, member, holds⟩ := exists_counterpart_left declares present
  cases holds with
  | field denotes => cases inside
  | oneof first type secret alternatives =>
    obtain rfl := List.mem_singleton.mp inside
    exact ⟨type, secret, member⟩

/-- The names of plain fields and groups are names of calls. -/
theorem exists_of_mem_names {name : String}
    (listed : name ∈ (Message.ofDeclarations typeName declarations).plainFields.map Field.name ++
      (Message.ofDeclarations typeName declarations).groups) :
    ∃ call ∈ calls, call.name = name := by
  rcases List.mem_append.mp listed with plain | group
  · rw [Message.plainFields, (Message.ofDeclarations_spec typeName declarations).2.1] at plain
    exact List.mem_map.mp ((plainNames_sublist declares).mem plain)
  · obtain ⟨type, secret, member⟩ := exists_of_mem_groups typeName declares group
    exact ⟨_, member, rfl⟩

/-- If the names of the calls are distinct, so are the names of plain fields and groups. -/
theorem nodup_names (distinct : (calls.map BuilderCall.name).Nodup) :
    ((Message.ofDeclarations typeName declarations).plainFields.map Field.name ++
      (Message.ofDeclarations typeName declarations).groups).Nodup := by
  refine List.nodup_append.mpr ⟨?_, Message.groups_nodup _, ?_⟩
  · rw [Message.plainFields, (Message.ofDeclarations_spec typeName declarations).2.1]
    exact distinct.sublist (plainNames_sublist declares)
  · rintro name plain group listed rfl
    obtain ⟨field, present, rfl⟩ := List.mem_map.mp plain
    obtain ⟨type, secret, member⟩ := exists_of_mem_groups typeName declares listed
    have none := claimants_of_mem typeName declares distinct member
    exact List.filter_eq_nil_iff.mp none field present (beq_iff_eq.mpr rfl)

end Names

/-- What holds of the description that is derived from the fields of a struct, and of its
implementation. -/
structure MessageImpl.Complete (fields : List NamedField) (impl : MessageImpl) (type : Message) :
    Prop where
  /-- The description has the name of the type. -/
  name_eq : type.name = impl.typeName
  /-- The name is not empty. -/
  name_ne : impl.typeName ≠ ""
  /-- The name has no dot at its beginning. -/
  plain : ¬ Dotted impl.typeName
  /-- Each field that is not left out has one call, in the order of the fields. -/
  each : List.Forall₂ NamedField.DescribedBy (fields.filter NamedField.isIncluded) impl.calls
  /-- Plain fields and groups have names. -/
  named : ∀ name ∈ type.plainFields.map Field.name ++ type.groups, name ≠ ""
  /-- Plain fields and groups have different names. -/
  distinct : (type.plainFields.map Field.name ++ type.groups).Nodup
  /-- A plain field stands under its key and is secret if it is marked so. -/
  field : ∀ field ∈ fields, ∀ options,
    FieldOptions.ofAttributes field.attributes = .ok options → options.skip = false →
    options.kind ≠ some .oneof →
      ∃ own ∈ type.plainFields, own.name = options.key field ∧ own.sensitive = options.secret
  /-- A group stands under its key, has one value, and all its alternatives are secret if it is
  marked so. -/
  group : ∀ field ∈ fields, ∀ options,
    FieldOptions.ofAttributes field.attributes = .ok options → options.skip = false →
    options.kind = some .oneof →
      options.key field ∈ type.groups ∧ field.type.shape.cardinality = .singular ∧
        (options.secret = true →
          ∀ alternative ∈ type.alternatives (options.key field), alternative.sensitive = true)
  /-- The message types that occur are registered, and no others. -/
  messages : ∀ element, .message element ∈ impl.registrations ↔
    ∃ call, .field call ∈ impl.calls ∧ call.kind = .message element
  /-- The dependencies of the groups that occur are registered, and no others. -/
  oneofs : ∀ element, .alternatives element ∈ impl.registrations ↔
    ∃ group secret, .oneof group element secret ∈ impl.calls

/-- Whether a field is the alternative that a variant stands for. -/
def Variant.StandsFor (variant : Variant) (alternative : Field) : Prop :=
  ∃ call, variant.Describes call ∧ (BuilderCall.field call).Declares (.field alternative)

/-- What holds of the alternatives that are derived from the variants of an enumeration, and of
their implementation. -/
structure OneofImpl.Complete (variants : List Variant) (impl : OneofImpl)
    (alternatives : List Field) : Prop where
  /-- Each variant has one alternative, in the order of the variants. -/
  each : List.Forall₂ Variant.StandsFor variants alternatives
  /-- An alternative has one value. -/
  single : ∀ alternative ∈ alternatives, alternative.cardinality = .singular
  /-- An alternative belongs to no group yet. -/
  ungrouped : ∀ alternative ∈ alternatives, alternative.group = none
  /-- The alternatives have different names. -/
  distinct : (alternatives.map Field.name).Nodup
  /-- The message types that occur are registered, and no others. -/
  messages : ∀ element, element ∈ impl.registrations ↔
    ∃ call ∈ impl.alternatives, call.kind = .message element

/-- The type of the values of a call is the one that its kind mentions. -/
theorem FieldCall.mem_messageType?_iff {call : FieldCall} {element : TypeExpr} :
    element ∈ call.messageType?.toList ↔ call.kind = .message element := by
  rw [Option.mem_toList, FieldCall.messageType?]
  cases call.kind with
  | scalar | enumeration => exact ⟨nofun, nofun⟩
  | message type => simp only [Option.some.injEq, ElementKind.message.injEq]

/-- The message types that a call registers are those of its values. -/
theorem BuilderCall.message_mem_registrations_iff {call : BuilderCall} {element : TypeExpr} :
    .message element ∈ call.registrations ↔
      ∃ own, call = .field own ∧ own.kind = .message element := by
  cases call with
  | field own =>
    simp only [registrations, List.mem_map, Registration.message.injEq, exists_eq_right,
      FieldCall.mem_messageType?_iff, BuilderCall.field.injEq, exists_eq_left']
  | oneof group type secret => simp [registrations]

/-- The groups that a call registers are those that it mentions. -/
theorem BuilderCall.alternatives_mem_registrations_iff {call : BuilderCall} {element : TypeExpr} :
    .alternatives element ∈ call.registrations ↔
      ∃ group secret, call = .oneof group element secret := by
  cases call with
  | field own => simp [registrations]
  | oneof group type secret => simp [registrations, eq_comm]

section Registrations

variable {calls : List BuilderCall} {element : TypeExpr}

/-- The message types that calls register are those of the fields that they describe. -/
theorem message_mem_registrations_iff :
    .message element ∈ calls.flatMap BuilderCall.registrations ↔
      ∃ call, .field call ∈ calls ∧ call.kind = .message element := by
  simp only [List.mem_flatMap, BuilderCall.message_mem_registrations_iff]
  constructor
  · rintro ⟨_, member, own, rfl, mentions⟩
    exact ⟨own, member, mentions⟩
  · rintro ⟨own, member, mentions⟩
    exact ⟨_, member, own, rfl, mentions⟩

/-- The groups whose alternatives calls register are those that they describe. -/
theorem alternatives_mem_registrations_iff :
    .alternatives element ∈ calls.flatMap BuilderCall.registrations ↔
      ∃ group secret, .oneof group element secret ∈ calls := by
  simp only [List.mem_flatMap, BuilderCall.alternatives_mem_registrations_iff]
  constructor
  · rintro ⟨_, member, group, secret, rfl⟩
    exact ⟨group, secret, member⟩
  · rintro ⟨group, secret, member⟩
    exact ⟨_, member, group, secret, rfl⟩

end Registrations

/-- The description of an implementation that is derived from a struct is complete. -/
theorem complete_of_deriveMessage {item : Item} {impl : MessageImpl} {fields : List NamedField}
    (accepted : deriveMessage item = .ok impl) (body : item.body = .struct (.named fields))
    (ident : IsName item.ident) (idents : ∀ field ∈ fields, IsName field.ident)
    {declarations : List Declaration}
    (declares : List.Forall₂ BuilderCall.Declares impl.calls declarations) :
    impl.Complete fields (.ofDeclarations impl.typeName declarations) := by
  have plain : ¬ Dotted impl.typeName := not_dotted_of_deriveMessage accepted ident.word
  obtain ⟨options, given, read, same, described, _, named, _⟩ := deriveMessage_eq_ok accepted
  obtain rfl := Fields.named.inj (ItemBody.struct.inj (body.symm.trans same))
  obtain ⟨registered, distinct, _, each⟩ := describeFields_spec described
  constructor
  · rw [(Message.ofDeclarations_spec impl.typeName declarations).1,
      Schema.Registry.withoutDot_eq_self plain]
  · rw [named]
    exact ContainerOptions.typeName_ne (ContainerOptions.sound_of_ofAttributes read) ident.solid
  · exact plain
  · exact each
  · intro name listed
    obtain ⟨call, member, rfl⟩ := exists_of_mem_names impl.typeName declares listed
    obtain ⟨field, present, options, read, describes⟩ := exists_counterpart_left each member
    rw [describes.name_eq]
    exact (FieldOptions.sound_of_ofAttributes read).key_ne
      (idents field (List.mem_of_mem_filter present)).solid
  · exact nodup_names impl.typeName declares distinct
  · intro field member options read included single
    obtain ⟨call, found, describes⟩ := exists_describes each member read included
    cases describes with
    | group grouped => exact absurd grouped single
    | field _ chosen => exact exists_plainField_of_mem impl.typeName declares found
  · intro field member options read included grouped
    obtain ⟨call, found, describes⟩ := exists_describes each member read included
    cases describes with
    | field single => exact absurd grouped single
    | group _ one =>
      refine ⟨mem_groups_of_mem impl.typeName declares found, one,
        fun secret alternative chosen => ?_⟩
      rw [secret] at found
      exact sensitive_of_mem_alternatives impl.typeName declares distinct found chosen
  · intro element
    rw [registered]
    exact message_mem_registrations_iff
  · intro element
    rw [registered]
    exact alternatives_mem_registrations_iff

/-- Items that correspond one by one to others, which correspond to further ones, correspond to
these. -/
theorem forall₂_through {α β γ : Type} {first : α → β → Prop} {second : β → γ → Prop}
    {list : List α} {middle : List β} {last : List γ} (before : List.Forall₂ first list middle)
    (after : List.Forall₂ second middle last) :
    List.Forall₂ (fun item twin => ∃ between, first item between ∧ second between twin) list
      last := by
  induction before generalizing last with
  | nil =>
    cases after
    exact .nil
  | cons here _ ih =>
    cases after with
    | cons there rest => exact .cons ⟨_, here, there⟩ (ih rest)

/-- What a call declares has the name and the number of values that the call says, and no group. -/
theorem BuilderCall.Declares.field_eq {call : FieldCall} {field : Field}
    (declares : (BuilderCall.field call).Declares (.field field)) :
    field.name = call.name ∧ field.cardinality = call.cardinality ∧ field.group = none := by
  cases declares
  exact ⟨rfl, rfl, rfl⟩

/-- The alternatives of an implementation that is derived from an enumeration are complete. -/
theorem complete_of_deriveOneof {item : Item} {impl : OneofImpl} {variants : List Variant}
    (accepted : deriveOneof item = .ok impl) (body : item.body = .enum variants)
    {alternatives : List Field}
    (declares : List.Forall₂ (fun call field => (BuilderCall.field call).Declares (.field field))
      impl.alternatives alternatives) : impl.Complete variants alternatives := by
  obtain ⟨_, same, described, _⟩ := deriveOneof_eq_ok accepted
  obtain rfl := ItemBody.enum.inj (body.symm.trans same)
  obtain ⟨registered, distinct, _, each⟩ := describeVariants_spec described
  have names : impl.alternatives.map FieldCall.name = alternatives.map Field.name :=
    map_eq_map_of_forall₂ declares fun _ _ own => own.field_eq.1.symm
  constructor
  · exact forall₂_through each declares
  · intro alternative present
    obtain ⟨call, member, own⟩ := exists_counterpart_left declares present
    obtain ⟨variant, _, describes⟩ := exists_counterpart_left each member
    cases describes with
    | alternative _ _ _ _ _ one => exact own.field_eq.2.1.trans one
  · intro alternative present
    obtain ⟨call, _, own⟩ := exists_counterpart_left declares present
    exact own.field_eq.2.2
  · rw [← names]
    exact distinct
  · intro element
    simp only [registered, List.mem_flatMap, FieldCall.mem_messageType?_iff]

/-- What is derived is complete. From a struct with named fields: one call for each field that is
not left out, in order and under a name of its own, secret marks and all, under a full name without
a dot at its beginning. From an enumeration: one alternative for each variant, in order and under a
name of its own. And exactly the types that occur are registered. -/
theorem derivation_complete :
    (∀ (item : Item) (impl : MessageImpl), deriveMessage item = .ok impl → IsName item.ident →
      ∃ fields, item.body = .struct (.named fields) ∧
        ((∀ field ∈ fields, IsName field.ident) →
          ∀ declarations, List.Forall₂ BuilderCall.Declares impl.calls declarations →
            impl.Complete fields (.ofDeclarations impl.typeName declarations))) ∧
    ∀ (item : Item) (impl : OneofImpl), deriveOneof item = .ok impl →
      ∃ variants, item.body = .enum variants ∧
        ∀ alternatives,
          List.Forall₂ (fun call field => (BuilderCall.field call).Declares (.field field))
            impl.alternatives alternatives →
          impl.Complete variants alternatives := by
  constructor
  · intro item impl accepted ident
    obtain ⟨_, fields, _, body, _⟩ := deriveMessage_eq_ok accepted
    exact ⟨fields, body, fun idents _ declares =>
      complete_of_deriveMessage accepted body ident idents declares⟩
  · intro item impl accepted
    obtain ⟨variants, body, _⟩ := deriveOneof_eq_ok accepted
    exact ⟨variants, body, fun _ declares => complete_of_deriveOneof accepted body declares⟩

section Parcel

/-- The declarations of the fields of a parcel: a secret one with a keyword for its name, a list of
messages, one that is left out, and a secret group with a name of its own. -/
def parcelFields : List NamedField :=
  [Catalogue.field "r#type" Catalogue.string [Catalogue.mark "secret"],
    Catalogue.field "stops" (Catalogue.listOf (Catalogue.optional (.named "Stop"))),
    Catalogue.field "cached" Catalogue.integer [Catalogue.mark "skip"],
    Catalogue.field "cargo" (Catalogue.optional (.named "Cargo"))
      [Catalogue.mark "oneof", Catalogue.mark "secret", Catalogue.setting "name" "load"]]

/-- The declaration of a parcel. -/
def parcel : Item :=
  Catalogue.message "Parcel" [Catalogue.setting "package" ".post.v1"] parcelFields

/-- What is derived from the declaration of a parcel. -/
def parcelImpl : MessageImpl where
  ident := "Parcel"
  typeName := "post.v1.Parcel"
  calls := [.field { name := "type", kind := .scalar, cardinality := .singular, secret := true },
    .field { name := "stops", kind := .message (.named "Stop"), cardinality := .repeated
             secret := false },
    .oneof "load" (.named "Cargo") true]
  registrations := [.message (.named "Stop"), .alternatives (.named "Cargo")]

/-- The variants of a cargo. -/
def cargoVariants : List Variant :=
  [Catalogue.alternative "Letter" (Catalogue.boxed (.named "Letter")),
    Catalogue.alternative "BulkWeight" Catalogue.integer [Catalogue.mark "secret"]]

/-- What is derived from the declaration of a cargo. -/
def cargoImpl : OneofImpl where
  ident := "Cargo"
  alternatives := [{ name := "letter", kind := .message (.named "Letter"), cardinality := .singular
                     secret := false },
    { name := "bulk_weight", kind := .scalar, cardinality := .singular, secret := true }]
  registrations := [.named "Letter"]

/-- The alternatives of a cargo. -/
def cargoAlternatives : List Field :=
  [.message "letter" "post.v1.Letter", .secret (.scalar "bulk_weight")]

/-- What the calls of a parcel declare. -/
def parcelDeclarations : List Declaration :=
  [.field (.secret (.scalar "type")), .field (.repeated (.message "stops" "post.v1.Stop")),
    .oneof "load" (cargoAlternatives.map Field.secret)]

/-- What is derived from the declarations of a parcel and a cargo is complete. -/
theorem parcel_and_cargo_complete :
    deriveMessage parcel = .ok parcelImpl ∧
      deriveOneof (Catalogue.group "Cargo" cargoVariants) = .ok cargoImpl ∧
      parcelImpl.Complete parcelFields (.ofDeclarations "post.v1.Parcel" parcelDeclarations) ∧
      cargoImpl.Complete cargoVariants cargoAlternatives := by
  have accepted : deriveMessage parcel = .ok parcelImpl := by cbv
  have grouped : deriveOneof (Catalogue.group "Cargo" cargoVariants) = .ok cargoImpl := by
    with_unfolding_all rfl
  have declares : List.Forall₂ BuilderCall.Declares parcelImpl.calls parcelDeclarations :=
    .cons (.field .scalar) (.cons (.field (.message _ "post.v1.Stop"))
      (.cons (.oneof "load" _ true cargoAlternatives) .nil))
  have own : List.Forall₂ (fun call field => (BuilderCall.field call).Declares (.field field))
      cargoImpl.alternatives cargoAlternatives :=
    .cons (.field (.message _ "post.v1.Letter")) (.cons (.field .scalar) .nil)
  obtain ⟨fields, same, complete⟩ :=
    derivation_complete.1 parcel parcelImpl accepted (by decide)
  obtain rfl : parcelFields = fields := Fields.named.inj (ItemBody.struct.inj same)
  obtain ⟨variants, like, whole⟩ := derivation_complete.2 _ cargoImpl grouped
  obtain rfl : cargoVariants = variants := ItemBody.enum.inj like
  have idents : ∀ field ∈ parcelFields, IsName field.ident := by decide
  exact ⟨accepted, grouped, complete idents _ declares, whole _ own⟩

end Parcel

end Redaction.Derivation

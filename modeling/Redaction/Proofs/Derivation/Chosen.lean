import Redaction.Catalogue.Basic
import Redaction.Proofs.Derivation.Reads
import Redaction.Proofs.Tree.Blotted
import Redaction.Proofs.Walk.Misfit
import Redaction.Proofs.Walk.Spared

/-!
# Variants in use

The value of a group is one of its variants and is written as an object with one member: the key is
the name of the variant, and the value is what the variant wraps. This module follows the member
into the tree of the message that holds the group and through the walk of that tree. If what the
variant wraps is written as more than `null`, the member arrives, and it is walked as the
alternative that is derived from the variant, in every configuration. If it is written as `null`, as
an absent value and a float that is no number are, the member counts as absent, and what arrives is
a group without an alternative.
-/

namespace Redaction

open Schema (Field Message Registry)

namespace Walker

variable {walker : Walker} {message : Message} {group : String} {owner : Option Field}
  {tree value : Tree} {task : Schema.Task} {whole : Tree} {path : List Step}

/-- A walk that reaches a message reaches the value of a group that claims its key alone. -/
theorem Reaches.toGroup (reached : walker.Reaches task whole path (.message message owner) tree)
    (listed : group ∈ message.groups) (alone : message.claimants group = [])
    (found : tree.part? [.key group] = some value) :
    walker.Reaches task whole (path ++ [.key group]) (.group message group) value :=
  have hands : walker.Hands (.message message owner) tree [.key group] (.group message group)
      value := ⟨.group listed, found, alone, trivial, trivial⟩
  reached.trans (.step hands (.here _ _))

/-- A walk that reaches a group without an alternative reports it, and takes it out where what does
not fit is taken out. -/
theorem Reaches.fellBack_of_empty {registry : Registry} {config : Config}
    {additional : AdditionalNames} {reference : String}
    (reached : (ofConfig registry config additional).Reaches (.root reference) whole path
      (.group message group) (.object [])) :
    let redacted := config.redactTree registry additional reference whole
    .fellBack (.malformedOneof message.name group .noAlternative) config.fallback ∈
        redacted.events ∧
      (config.fallback = .strip → redacted.result.part? path = some .stripped) := by
  intro redacted
  have falls : (ofConfig registry config additional).perform (.group message group) (.object []) =
      some <$> (ofConfig registry config additional).fallBack
        (.malformedOneof message.name group .noAlternative) (.object []) := rfl
  refine ⟨List.mem_map.mpr ⟨_, ?_, rfl⟩, fun strips => ?_⟩
  · have met := reached.reported
    rw [falls, perform, Walked.problems_map, Walked.problems_map] at met
    exact met.subset (List.mem_singleton.mpr rfl)
  · have strict : (ofConfig registry config additional).fallback = .strip := strips
    have done : ((ofConfig registry config additional).perform (.group message group)
        (.object [])).value = some .stripped := by
      rw [falls, Walked.value_map, fallBack, strict]
    obtain ⟨result, yields, here⟩ := reached.performed done
    obtain rfl := Option.some.inj yields
    exact here

end Walker

namespace Tree

/-- A member that is not `null` arrives in the tree, if no other has its key. -/
theorem part?_ofJson_ofMembers {members : List (String × Json)} {key : String} {value : Json}
    (distinct : (Members.keys members).Nodup) (present : (key, value) ∈ members)
    (solid : value.isNull = false) :
    (ofJson (.ofMembers members)).part? [.key key] = some (.ofJson value) := by
  have kept : (key, ofJson value) ∈ ofMembers (Members.ofList members) := by
    rw [ofMembers_eq_map]
    have member := Members.mem_ofList_of_nodup distinct present
    exact List.mem_map.mpr ⟨_, List.mem_filter.mpr ⟨member, by rw [solid]; rfl⟩, rfl⟩
  have once : (Members.keys (ofMembers (Members.ofList members))).Nodup := by
    rw [ofMembers_eq_map, Members.keys, Members.mapValues, List.map_map]
    have sorted := (Members.ordered_ofList members).nodup_keys
    exact List.Nodup.sublist (List.filter_sublist.map Prod.fst) sorted
  exact (part?_singleton _ _).trans ((Members.find?_eq_some_iff once).mpr kept)

/-- The tree of an object with one member has the member, unless it is `null`. -/
theorem ofJson_object_singleton (key : String) (value : Json) :
    ofJson (.object [(key, value)]) =
      if value.isNull then .object [] else .object [(key, ofJson value)] := by
  rw [ofJson, ofMembers, ofMembers]
  split <;> rfl

end Tree

namespace Derivation

open Serial (Data)

/-- Which data a value of a type at a site hands over that is a variant of a group, with what the
variant wraps. The value may be optional or boxed. -/
inductive Program.Chooses (program : Program) (variant : Variant) (payload : Data) (site : String) :
    TypeExpr → Data → Prop where
  /-- A variant. A group has no parameters, so its type is written without arguments. -/
  | variant {type : TypeExpr} {item : Item} {variants : List Variant}
      (concrete : ∀ name place, type.typeArgument? name place = none)
      (declared : program.oneof? site type = some item) (body : item.body = .enum variants)
      (among : variant ∈ variants) :
      Chooses program variant payload site type (.labelled variant.key payload)
  /-- A variant in a value that might have been absent. -/
  | present {type inner : TypeExpr} {data : Data}
      (optional : type.typeArgument? "Option" 0 = some inner)
      (inside : Chooses program variant payload site inner data) :
      Chooses program variant payload site type (.present data)
  /-- A variant in a box. -/
  | boxed {type inner : TypeExpr} {data : Data} (box : type.typeArgument? "Box" 0 = some inner)
      (inside : Chooses program variant payload site inner data) :
      Chooses program variant payload site type data

namespace Program.Chooses

variable {program : Program} {variant : Variant} {payload data : Data} {site : String}
  {type : TypeExpr}

/-- The type is that of a single value, of a declared group to which the variant belongs. -/
theorem exists_item (chooses : program.Chooses variant payload site type data) :
    type.shape.cardinality = .singular ∧ ∃ item variants,
      program.oneof? site type.shape.element = some item ∧ item.body = .enum variants ∧
        variant ∈ variants := by
  induction chooses with
  | @variant type item variants concrete declared body among =>
    have bare : type.wrapped? = none := by
      rw [TypeExpr.wrapped?, concrete, concrete, Option.or_none]
    have map : type.mapValue? = none := by
      rw [TypeExpr.mapValue?, concrete, concrete, Option.or_none]
    have list := TypeExpr.listItem?_of_vec_eq_none (concrete "Vec" 0)
    rw [TypeExpr.shape_of_single bare list map]
    exact ⟨rfl, item, variants, declared, body, among⟩
  | present optional _ ih =>
    rwa [TypeExpr.shape_of_wrapped? (by rw [TypeExpr.wrapped?, optional, Option.some_or])]
  | @boxed type inner data box _ ih =>
    have plain : type.typeArgument? "Option" 0 = none :=
      TypeExpr.typeArgument?_of_ne box (by decide) 0
    rwa [TypeExpr.shape_of_wrapped? (by rw [TypeExpr.wrapped?, plain, Option.none_or, box])]

/-- The document is an object with one member, under the key of the variant. -/
theorem exists_document (chooses : program.Chooses variant payload site type data) {json : Json}
    (written : data.toJson = .ok json) :
    ∃ document, payload.toJson = .ok document ∧ json = .object [(variant.key, document)] := by
  induction chooses with
  | variant =>
    obtain ⟨document, own, done⟩ := bind_eq_ok_iff.mp written
    exact ⟨document, own, (Except.ok.inj done).symm⟩
  | present _ _ ih => exact ih written
  | boxed _ _ ih => exact ih written

end Program.Chooses

section Record

variable {item : Item} {values : List Data} {field : NamedField} {data : Data}

/-- The keys of the data of a message are keys of its fields, in their order. -/
theorem sublist_keys_zip (fields : List NamedField) (values : List Data) :
    (((fields.zip values).map fun pair => (pair.1.key, pair.2)).map Prod.fst).Sublist
      (fields.map NamedField.key) := by
  have firsts : ((fields.zip values).map Prod.fst).Sublist fields := by
    rw [List.zip_eq_zip_take_min, List.map_fst_zip (by simp)]
    exact List.take_sublist _ _
  have keys := firsts.map NamedField.key
  rwa [List.map_map] at keys ⊢

/-- The tree of a message has the value of a field under its key, unless it is written as `null`. -/
theorem part?_of_record (distinct : (item.namedFields.map NamedField.key).Nodup) {tree : Tree}
    (serializes : (item.record values).toTree = .ok tree)
    (held : (field, data) ∈ item.namedFields.zip values) :
    ∃ json, data.toJson = .ok json ∧
      (json.isNull = false → tree.part? [.key field.key] = some (.ofJson json)) := by
  obtain ⟨whole, written, done⟩ := bind_eq_ok_iff.mp serializes
  obtain rfl := Except.ok.inj done
  obtain ⟨members, listed, done⟩ := bind_eq_ok_iff.mp written
  obtain rfl := Except.ok.inj done
  rw [Data.fieldsToJson_eq_mapM] at listed
  have each := forall₂_of_mapM_ok listed
  obtain ⟨member, present, wrote⟩ :=
    exists_counterpart each (List.mem_map.mpr ⟨(field, data), held, rfl⟩)
  obtain ⟨json, own, done⟩ := bind_eq_ok_iff.mp wrote
  obtain rfl := Except.ok.inj done
  have names : ((item.namedFields.zip values).map fun pair => (pair.1.key, pair.2)).map Prod.fst =
      Members.keys members :=
    map_eq_map_of_forall₂ each fun _ _ wrote => by
      obtain ⟨_, _, done⟩ := bind_eq_ok_iff.mp wrote
      exact congrArg Prod.fst (Except.ok.inj done)
  have once : (Members.keys members).Nodup :=
    names ▸ distinct.sublist (sublist_keys_zip item.namedFields values)
  exact ⟨json, own, Tree.part?_ofJson_ofMembers once present⟩

end Record

/-- An alternative has the name that its variant has. -/
theorem Variant.Describes.name_eq {variant : Variant} {call : FieldCall}
    (describes : variant.Describes call) : call.name = variant.key := by
  cases describes with
  | alternative _ read => exact (Variant.key_eq read).symm

namespace Family

variable {program : Program} {family : Family} {impl : MessageImpl} {message : Message}
  (accepted : Family.derive program.messages program.oneofs program.meaning = .ok family)

include accepted

/-- Each variant of a declared group is described by an alternative of the derived one, in the order
of the declaration. -/
theorem exists_group_of_meant {site : String} {type : TypeExpr} {item : Item}
    (meant : program.oneof? site type = some item) {variants : List Variant}
    (body : item.body = .enum variants) :
    ∃ group, family.oneof? site type = some group ∧
      List.Forall₂ Variant.Describes variants group.alternatives := by
  obtain ⟨group, found, made⟩ := Schema.exists_of_rel_some (rel_oneof? accepted site type) meant
  obtain ⟨_, like, described, _⟩ := deriveOneof_eq_ok made
  obtain rfl := ItemBody.enum.inj (body.symm.trans like)
  exact ⟨group, found, (describeVariants_spec described).2.2.2⟩

omit accepted in
/-- The field that holds a group has a call for it, and no other call has its key. -/
theorem oneof_mem_calls {item : Item} (made : deriveMessage item = .ok impl) {field : NamedField}
    (member : field ∈ item.namedFields) {options : FieldOptions}
    (read : FieldOptions.ofAttributes field.attributes = .ok options)
    (grouped : options.kind = some .oneof) (included : options.skip = false) :
    .oneof field.key field.type.shape.element options.secret ∈ impl.calls ∧
      (impl.calls.map BuilderCall.name).Nodup := by
  obtain ⟨_, fields, _, struct, calls, _⟩ := deriveMessage_eq_ok made
  have listed : item.namedFields = fields := by rw [Item.namedFields, struct]
  obtain ⟨_, distinct, _, each⟩ := describeFields_spec calls
  obtain ⟨call, present, describes⟩ := exists_describes each (listed ▸ member) read included
  cases describes with
  | field single => exact absurd grouped single
  | group _ _ =>
    rw [← NamedField.key_eq read] at present
    exact ⟨present, distinct⟩

/-- The field that holds a group has, for each variant, the alternative that is derived from it, and
claims its key alone. -/
theorem exists_alternative_of_meant {item : Item} (made : deriveMessage item = .ok impl)
    (described : family.description? impl = some message) {field : NamedField}
    (member : field ∈ item.namedFields) {options : FieldOptions}
    (read : FieldOptions.ofAttributes field.attributes = .ok options)
    (grouped : options.kind = some .oneof) (included : options.skip = false) {group : Item}
    (meant : program.oneof? item.path field.type.shape.element = some group)
    {variants : List Variant} (body : group.body = .enum variants) {variant : Variant}
    (among : variant ∈ variants) :
    field.key ∈ message.groups ∧ message.claimants field.key = [] ∧
      ∃ derived call own, family.oneof? item.path field.type.shape.element = some derived ∧
        call ∈ derived.alternatives ∧ variant.Describes call ∧
        family.field? derived.path call = some own ∧
        message.alternative? field.key variant.key =
          some ((if options.secret then own.secret else own).inGroup field.key) := by
  obtain ⟨present, _⟩ := oneof_mem_calls made member read grouped included
  have named := wellNamed_of_derive accepted made described
  obtain ⟨heads, derived, found, alternatives⟩ := exists_stood_alternatives described present
  rw [path_of_deriveMessage made] at found
  obtain ⟨twin, also, each⟩ := exists_group_of_meant accepted meant body
  obtain rfl := Option.some.inj (found.symm.trans also)
  obtain ⟨call, stood, describes⟩ := exists_counterpart each among
  obtain ⟨own, stands, declared⟩ := alternatives call stood
  refine ⟨heads, named.keysApart.claimants_of_group heads, derived, call, own, found, stood,
    describes, stands, ?_⟩
  refine (Schema.find?_name_eq_some_iff (named.alternatives _ heads)).mpr ⟨declared, ?_⟩
  rw [((means_of_field? stands).1.inGroup options.secret field.key).name, describes.name_eq]

/-- It has no other alternatives. -/
theorem exists_variant_of_alternative {item : Item} (made : deriveMessage item = .ok impl)
    (described : family.description? impl = some message) {field : NamedField}
    (member : field ∈ item.namedFields) {options : FieldOptions}
    (read : FieldOptions.ofAttributes field.attributes = .ok options)
    (grouped : options.kind = some .oneof) (included : options.skip = false) {group : Item}
    (meant : program.oneof? item.path field.type.shape.element = some group)
    {variants : List Variant} (body : group.body = .enum variants) {own : Field}
    (declared : own ∈ message.alternatives field.key) :
    ∃ variant ∈ variants, variant.key = own.name := by
  obtain ⟨present, distinct⟩ := oneof_mem_calls made member read grouped included
  obtain ⟨type, secret, also, derived, found, call, stood, means⟩ :=
    exists_call_of_alternative described declared
  obtain ⟨_, rfl, rfl⟩ := BuilderCall.oneof.inj
    (List.inj_on_of_nodup_map distinct also present rfl)
  rw [path_of_deriveMessage made] at found
  obtain ⟨twin, twice, each⟩ := exists_group_of_meant accepted meant body
  obtain rfl := Option.some.inj (found.symm.trans twice)
  obtain ⟨variant, among, describes⟩ := exists_counterpart_left each stood
  exact ⟨variant, among, by rw [means.name, describes.name_eq]⟩

/-- So it has for a variant that is chosen in its data. -/
theorem exists_alternative_of_chooses {item : Item} (made : deriveMessage item = .ok impl)
    (described : family.description? impl = some message) {field : NamedField}
    (member : field ∈ item.namedFields) {options : FieldOptions}
    (read : FieldOptions.ofAttributes field.attributes = .ok options)
    (grouped : options.kind = some .oneof) (included : options.skip = false) {variant : Variant}
    {payload data : Data} (chooses : program.Chooses variant payload item.path field.type data) :
    field.key ∈ message.groups ∧ message.claimants field.key = [] ∧
      ∃ derived call own, family.oneof? item.path field.type.shape.element = some derived ∧
        call ∈ derived.alternatives ∧ variant.Describes call ∧
        family.field? derived.path call = some own ∧
        message.alternative? field.key variant.key =
          some ((if options.secret then own.secret else own).inGroup field.key) := by
  obtain ⟨_, group, variants, meant, body, among⟩ := chooses.exists_item
  exact exists_alternative_of_meant accepted made described member read grouped included meant body
    among

/-- A group has the variant in use, exactly if that wraps more than `null`. Let a derived message
hold a variant in a field for a group. The schema has the alternative that is derived from the
variant. If what the variant wraps is written as more than `null`, the tree has an object with the
variant as its only key under the key of the field; any walk treats the group as it treats the
alternative, reports included; and wherever the schema leads to the message, in any configuration,
the result has the variant with what the walk of the alternative yields. If it is written as `null`,
the tree has an empty object there, and every walk that reaches the message reports a malformed
group. -/
theorem variant_in_use_arrives {item : Item} (made : deriveMessage item = .ok impl)
    (described : family.description? impl = some message)
    (distinct : (item.namedFields.map NamedField.key).Nodup) {field : NamedField}
    {options : FieldOptions} (read : FieldOptions.ofAttributes field.attributes = .ok options)
    (grouped : options.kind = some .oneof) (included : options.skip = false) {variant : Variant}
    {payload data : Data} (chooses : program.Chooses variant payload item.path field.type data)
    {values : List Data} (held : (field, data) ∈ item.namedFields.zip values) {tree : Tree}
    (serializes : (item.record values).toTree = .ok tree) :
    ∃ document derived call plain, payload.toJson = .ok document ∧
      family.oneof? item.path field.type.shape.element = some derived ∧
      call ∈ derived.alternatives ∧ variant.Describes call ∧
      family.field? derived.path call = some plain ∧
      let own := (if options.secret then plain.secret else plain).inGroup field.key
      let arrived : Tree := .object [(variant.key, .ofJson document)]
      message.alternative? field.key variant.key = some own ∧
      (document ≠ .null →
        tree.part? [.key field.key] = some arrived ∧
        (∀ walker : Walker, walker.perform (.group message field.key) arrived =
          (fun inner => some (.object [(variant.key, inner)])) <$>
            walker.walkField walker.enterMessage message own (.ofJson document)) ∧
        ∀ registry config additional reference whole path owner,
          let walker := Walker.ofConfig registry config additional
          registry.Undotted →
          walker.thorough.Reaches (.root reference) whole path (.message message owner) tree →
          (config.redactTree registry additional reference whole).result.part?
              (path ++ [.key field.key]) =
            some (.object [(variant.key,
              (walker.walkField walker.enterMessage message own (.ofJson document)).value)])) ∧
      (document = .null →
        tree.part? [.key field.key] = some (.object []) ∧
        ∀ registry config additional reference whole path owner,
          (Walker.ofConfig registry config additional).Reaches (.root reference) whole path
            (.message message owner) tree →
          let redacted := config.redactTree registry additional reference whole
          .fellBack (.malformedOneof message.name field.key .noAlternative) config.fallback ∈
              redacted.events ∧
            (config.fallback = .strip →
              redacted.result.part? (path ++ [.key field.key]) = some .stripped)) := by
  obtain ⟨listed, alone, derived, call, plain, means, among, describes, stands, declared⟩ :=
    exists_alternative_of_chooses accepted made described (List.of_mem_zip held).1 read grouped
      included chooses
  obtain ⟨json, written, arrives⟩ := part?_of_record distinct serializes held
  obtain ⟨document, own, rfl⟩ := chooses.exists_document written
  have found := arrives rfl
  rw [Tree.ofJson_object_singleton] at found
  refine ⟨document, derived, call, plain, own, means, among, describes, stands, declared,
    fun solid => ?_, ?_⟩
  · have inside : document.isNull = false := by
      cases document with
      | null => exact absurd rfl solid
      | _ => rfl
    rw [inside, if_neg Bool.false_ne_true] at found
    refine ⟨found, fun walker => Walker.perform_group declared _, ?_⟩
    intro registry config additional reference whole path owner walker undotted reached
    exact (reached.toGroup listed alone found).part?_of_alternative undotted declared
  · rintro rfl
    refine ⟨found, fun registry config additional reference whole path owner reached => ?_⟩
    exact (reached.toGroup listed alone found).fellBack_of_empty

end Family

section Gauge

open Catalogue

/-- The field of a gauge. -/
def gaugeField : NamedField :=
  Catalogue.field "reading" (optional (.named "Reading")) [mark "oneof"]

/-- The declaration of a gauge, which may have a reading. -/
def gauge : Item := Catalogue.message "Gauge" [] [gaugeField]

/-- A reading that is a float. -/
def ratio : Variant := alternative "Ratio" (.named "f64")

/-- A reading that is a secret note, which may be absent. -/
def note : Variant := alternative "Note" (optional string) [mark "secret"]

/-- The program of gauges. -/
def metering : Program where
  messages := [gauge]
  oneofs := [Catalogue.group "Reading" [ratio, note]]

/-- What is derived from the declaration of a gauge. -/
def gaugeImpl : MessageImpl where
  ident := "Gauge"
  typeName := "Gauge"
  calls := [.oneof "reading" (.named "Reading") false]
  registrations := [.alternatives (.named "Reading")]

/-- The family of gauges. -/
def meteringFamily : Family where
  messages := [gaugeImpl]
  oneofs :=
    [{ ident := "Reading"
       alternatives :=
        [{ name := "ratio", kind := .scalar, cardinality := .singular, secret := false },
          { name := "note", kind := .scalar, cardinality := .singular, secret := true }]
       registrations := [] }]

/-- The description of a gauge. -/
def gaugeType : Message :=
  .ofDeclarations "Gauge"
    [.oneof "reading" [Field.scalar "ratio", Field.secret (Field.scalar "note")]]

/-- The data of a gauge with a reading. -/
def gaugeData (variant : Variant) (payload : Data) : Data :=
  gauge.record [.present (.labelled variant.key payload)]

/-- The data of a gauge has one of the variants of a reading in use. -/
theorem chooses_of_mem {variant : Variant} (among : variant ∈ [ratio, note]) (payload : Data) :
    metering.Chooses variant payload gauge.path gaugeField.type
      (.present (.labelled variant.key payload)) := by
  have concrete : ∀ name place,
      (TypeExpr.named "Reading").typeArgument? name place = none := fun _ _ => rfl
  have meant : metering.oneof? gauge.path (.named "Reading") =
    some (Catalogue.group "Reading" [ratio, note]) := rfl
  exact .present (TypeExpr.typeArgument?_applied "Option" [.named "Reading"] 0)
    (.variant concrete meant rfl among)

/-- Gauges are accepted. -/
theorem metering_accepted :
    Family.derive metering.messages metering.oneofs = .ok meteringFamily ∧
      deriveMessage gauge = .ok gaugeImpl ∧
      meteringFamily.description? gaugeImpl = some gaugeType := by
  refine ⟨by with_unfolding_all rfl, by with_unfolding_all rfl, ?_⟩
  decide

/-- A note that is not absent arrives, and being secret is taken out. -/
theorem gauge_note_arrives :
    let data := gaugeData note (.present (.json (.string "cold")))
    let tree : Tree := .object [("reading", .object [("note", .string "cold")])]
    data.toTree = .ok tree ∧
      (Config.redactTree {} (.ofList [gaugeType]) .empty "Gauge" tree).result.part?
        [.key "reading"] = some (.object [("note", .stripped)]) := by
  intro data tree
  obtain ⟨accepted, made, described⟩ := metering_accepted
  have serializes : data.toTree = .ok tree := by decide +kernel
  have read : FieldOptions.ofAttributes gaugeField.attributes = .ok { kind := some .oneof } := rfl
  have key : gaugeField.key = "reading" := by decide
  have name : note.key = "note" := by decide +kernel
  let reading : Data := .present (.labelled note.key (.present (.json (.string "cold"))))
  have held : (gaugeField, reading) ∈ gauge.namedFields.zip [reading] := List.mem_cons_self
  have distinct : (gauge.namedFields.map NamedField.key).Nodup := List.nodup_singleton _
  obtain ⟨document, _, _, plain, own, _, _, _, _, declared, solid, _⟩ :=
    Family.variant_in_use_arrives accepted made described distinct read rfl rfl
      (chooses_of_mem (List.mem_cons_of_mem _ List.mem_cons_self) _) held serializes
  obtain rfl := Except.ok.inj own
  obtain ⟨_, _, each⟩ := solid nofun
  have known : gaugeType.alternative? gaugeField.key note.key =
      some ((Field.secret (.scalar "note")).inGroup "reading") := by
    rw [key, name]
    decide
  let walker := Walker.ofConfig (.ofList [gaugeType]) {} .empty
  have opens : walker.thorough.Hands (.root "Gauge") tree [] (.message gaugeType none) tree :=
    ⟨.root (by decide), rfl, trivial, trivial, rfl⟩
  have arrives := each (.ofList [gaugeType]) {} .empty "Gauge" tree [] none (by decide)
    (.step opens (.here _ _))
  rw [← Option.some.inj (known.symm.trans declared), key, name] at arrives
  exact ⟨serializes, arrives⟩

/-- A ratio that is no number is lost: the derived schema is accepted and the data has a tree, but
the group in it has no alternative, is taken out and is reported as malformed. -/
theorem gauge_ratio_lost :
    let data := gaugeData ratio (.double .notANumber)
    let tree : Tree := .object [("reading", .object [])]
    Family.derive metering.messages metering.oneofs = .ok meteringFamily ∧
      deriveMessage gauge = .ok gaugeImpl ∧
      meteringFamily.description? gaugeImpl = some gaugeType ∧
      metering.Chooses ratio (.double .notANumber) gauge.path gaugeField.type
        (.present (.labelled ratio.key (.double .notANumber))) ∧
      data.toTree = .ok tree ∧
      Config.redact {} .empty ⟨"Gauge", .ofList [gaugeType], data⟩ =
        .ok ⟨.object [("reading", .stripped)],
          [.fellBack (.malformedOneof "Gauge" "reading" .noAlternative) .strip]⟩ := by
  obtain ⟨accepted, made, described⟩ := metering_accepted
  refine ⟨accepted, made, described, chooses_of_mem List.mem_cons_self _, ?_, ?_⟩
  · decide +kernel
  · decide +kernel

end Gauge

end Derivation

end Redaction

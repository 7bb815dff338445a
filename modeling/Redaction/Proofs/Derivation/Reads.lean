import Redaction.Proofs.Derivation.Closure
import Redaction.Proofs.Derivation.Keys
import Redaction.Proofs.Derivation.Typed
import Redaction.Proofs.Fallible
import Redaction.Proofs.Members
import Redaction.Proofs.Schema.Conforming

/-!
# Documents read by a derived schema

A schema is derived from the types of fields, and a document is written from the values of these
types. This module compares the two, type by type: what the schema expects of a field of a type, as
a single message, as several of them or as a group, the document of a value of this type has. What
stands in the fields of a message and behind the label of a group is compared first, so the proof is
by induction on how the data comes about.
-/

namespace Redaction

open Schema (Field Message Registry)

namespace Serial.Data

/-- The documents of a list are written one by one. -/
theorem itemsToJson_eq_mapM (items : List Data) : itemsToJson items = items.mapM toJson := by
  induction items with
  | nil => rfl
  | cons item rest ih =>
    rw [itemsToJson, List.mapM_cons, ih]
    rfl

/-- The member that is written from an entry of a map. -/
def entryToJson (entry : Data × Data) : Except Obstacle (String × Json) := do
  let key ← entry.1.key
  .ok (key, ← entry.2.toJson)

/-- The members of a map are written one by one. -/
theorem entriesToJson_eq_mapM (entries : List (Data × Data)) :
    entriesToJson entries = entries.mapM entryToJson := by
  induction entries with
  | nil => rfl
  | cons entry rest ih =>
    rw [entriesToJson, List.mapM_cons, ih, entryToJson]
    simp only [bind_assoc]
    rfl

/-- The member that is written from a field of a record. -/
def fieldToJson (field : String × Data) : Except Obstacle (String × Json) := do
  .ok (field.1, ← field.2.toJson)

/-- The members of a record are written one by one. -/
theorem fieldsToJson_eq_mapM (fields : List (String × Data)) :
    fieldsToJson fields = fields.mapM fieldToJson := by
  induction fields with
  | nil => rfl
  | cons field rest ih =>
    rw [fieldsToJson, List.mapM_cons, ih, fieldToJson]
    simp only [bind_assoc]
    rfl

/-- The documents of a list are those of its items. -/
theorem exists_of_itemsToJson {items : List Data} {documents : List Json}
    (written : itemsToJson items = .ok documents) :
    ∀ document ∈ documents, ∃ item ∈ items, item.toJson = .ok document := by
  rw [itemsToJson_eq_mapM] at written
  exact fun _ present => Derivation.exists_of_mem_mapM written present

/-- The values of the members of a map are those of its entries. -/
theorem exists_of_entriesToJson {entries : List (Data × Data)} {members : List (String × Json)}
    (written : entriesToJson entries = .ok members) :
    ∀ member ∈ members, ∃ entry ∈ entries, entry.2.toJson = .ok member.2 := by
  rw [entriesToJson_eq_mapM] at written
  intro member present
  obtain ⟨entry, among, own⟩ := Derivation.exists_of_mem_mapM written present
  obtain ⟨_, _, own⟩ := bind_eq_ok_iff.mp own
  obtain ⟨_, value, done⟩ := bind_eq_ok_iff.mp own
  cases done
  exact ⟨entry, among, value⟩

/-- The members of a record are its fields. -/
theorem exists_of_fieldsToJson {fields : List (String × Data)} {members : List (String × Json)}
    (written : fieldsToJson fields = .ok members) :
    ∀ member ∈ members, ∃ field ∈ fields, field.1 = member.1 ∧ field.2.toJson = .ok member.2 := by
  rw [fieldsToJson_eq_mapM] at written
  intro member present
  obtain ⟨field, among, own⟩ := Derivation.exists_of_mem_mapM written present
  obtain ⟨_, value, done⟩ := bind_eq_ok_iff.mp own
  cases done
  exact ⟨field, among, rfl, value⟩

end Serial.Data

/-- The members of the tree of an object are the members that are not `null`. -/
theorem Tree.exists_of_mem_ofMembers {members : List (String × Json)} {member : String × Tree}
    (present : member ∈ ofMembers (Members.ofList members)) :
    ∃ value, (member.1, value) ∈ members ∧ value.isNull = false ∧ member.2 = ofJson value := by
  rw [ofMembers_eq_map, Members.mapValues, List.mem_map] at present
  obtain ⟨⟨key, value⟩, kept, rfl⟩ := present
  obtain ⟨among, solid⟩ := List.mem_filter.mp kept
  exact ⟨value, Members.mem_of_mem_ofList among, by simpa using solid, rfl⟩

namespace Derivation

open Serial (Data)

section Meaning

variable {program : Program} {family : Family}
  (accepted : Family.derive program.messages program.oneofs program.meaning = .ok family)

include accepted

/-- A type means the implementation that is derived from the declaration that it means. -/
theorem rel_message? (site : String) (type : TypeExpr) :
    Option.Rel (fun item impl => deriveMessage item = .ok impl) (program.message? site type)
      (family.message? site type) := by
  obtain ⟨impls, first, accepted⟩ := bind_eq_ok_iff.mp accepted
  obtain ⟨groups, second, accepted⟩ := bind_eq_ok_iff.mp accepted
  obtain rfl := Except.ok.inj accepted
  simp only [Program.message?, Family.message?]
  cases program.meaning site type with
  | none => exact .none
  | some path =>
    refine Schema.rel_find?_name (fun item impl derived => ?_) (forall₂_of_mapM_ok first)
    rw [path_of_deriveMessage derived]

/-- A type means the group that is derived from the declaration that it means. -/
theorem rel_oneof? (site : String) (type : TypeExpr) :
    Option.Rel (fun item impl => deriveOneof item = .ok impl) (program.oneof? site type)
      (family.oneof? site type) := by
  obtain ⟨impls, first, accepted⟩ := bind_eq_ok_iff.mp accepted
  obtain ⟨groups, second, accepted⟩ := bind_eq_ok_iff.mp accepted
  obtain rfl := Except.ok.inj accepted
  simp only [Program.oneof?, Family.oneof?]
  cases program.meaning site type with
  | none => exact .none
  | some path =>
    refine Schema.rel_find?_name (fun item impl derived => ?_) (forall₂_of_mapM_ok second)
    rw [path_of_deriveOneof derived]

end Meaning

namespace Family

variable {program : Program} {family : Family} {keys : List Schema.TypeKey} {registry : Registry}
  {policy : Policy} {impl : MessageImpl} {message : Message} {site : String}
  {type inner : TypeExpr} {json : Json}

/-- Whether the messages to which a call at a site leads are of types that can be reached. -/
def Knows (family : Family) (keys : List Schema.TypeKey) (site : String)
    (call : FieldCall) : Prop :=
  ∀ next, family.target? site call = some next → family.Reached keys next

/-- A field call of a type that can be reached leads to types that can be reached. -/
theorem knows_of_field (reached : family.Reached keys impl) {call : FieldCall}
    (member : .field call ∈ impl.calls) : family.Knows keys impl.path call := by
  obtain ⟨root, among, path⟩ := reached
  exact fun next target => ⟨root, among, path.tail ⟨_, member, .field target⟩⟩

/-- The alternatives of a group of a type that can be reached lead to types that can be reached. -/
theorem knows_of_alternative (reached : family.Reached keys impl) {name : String} {secret : Bool}
    (member : .oneof name type secret ∈ impl.calls) {group : OneofImpl}
    (means : family.oneof? impl.path type = some group) {call : FieldCall}
    (among : call ∈ group.alternatives) :
    family.Knows keys group.path call := by
  obtain ⟨root, first, path⟩ := reached
  exact fun next target => ⟨root, first, path.tail ⟨_, member, .alternative means among target⟩⟩

/-- What the registry makes of the document of a value of a type at a site, whatever field of the
type it is the value of. -/
structure Reads (family : Family) (keys : List Schema.TypeKey) (registry : Registry)
    (policy : Policy) (site : String) (type : TypeExpr) (json : Json) : Prop where
  /-- As a single message, which may be unset. -/
  single : ∀ impl message, family.Reached keys impl → family.description? impl = some message →
    family.message? site type.unwrapped = some impl →
    registry.Conforms policy (.message message) (.ofJson json)
  /-- As the messages of a field. -/
  several : ∀ impl message, family.Reached keys impl → family.description? impl = some message →
    family.message? site type.shape.element = some impl → json.isNull = false →
    registry.Conforms policy (.ofMessages message type.shape.cardinality) (.ofJson json)
  /-- As a group. -/
  group : ∀ group, family.oneof? site type.shape.element = some group →
    type.shape.cardinality = .singular → json.isNull = false →
    ∃ call ∈ group.alternatives, ∃ payload, json = .object [(call.name, payload)] ∧
      payload.isNull = false ∧ ∀ field, family.Means group.path call field →
        family.Knows keys group.path call →
        registry.Conforms policy (registry.placeOf policy field) (.ofJson payload)

/-- An absent value fits everywhere. -/
theorem reads_null : family.Reads keys registry policy site type .null :=
  ⟨fun _ message _ _ _ => .unset message, fun _ _ _ _ _ solid => (nomatch solid),
    fun _ _ _ solid => (nomatch solid)⟩

/-- Wrappers do not matter. -/
theorem Reads.of_wrapped? (wraps : type.wrapped? = some inner)
    (reads : family.Reads keys registry policy site inner json) :
    family.Reads keys registry policy site type json := by
  have same := TypeExpr.shape_of_wrapped? wraps
  have left := TypeExpr.unwrapped_of_wrapped? wraps
  obtain ⟨single, several, group⟩ := reads
  constructor
  · rwa [left]
  · rwa [same]
  · rwa [same]

section Closed

variable (derived : family.Derived) (closure : family.IsClosure keys registry)

include derived closure

/-- The name to which a field refers is that of the type to which its call leads. -/
theorem exists_target {call : FieldCall} {field : Field} (means : family.Means site call field)
    (knows : family.Knows keys site call) {typeName : String}
    (refers : field.typeName? = some typeName) :
    ∃ element next message, call.kind = .message element ∧
      family.message? site element = some next ∧
      family.Reached keys next ∧ family.description? next = some message ∧
      registry.get? typeName = some message := by
  obtain ⟨reference, written, rfl⟩ := Option.map_eq_some_iff.mp refers
  have kind := means.kind
  cases chosen : call.kind with
  | scalar | enumeration =>
    rw [chosen] at kind
    rw [Field.reference?, ← Option.some.inj kind] at written
    cases written
  | message element =>
    rw [chosen] at kind
    obtain ⟨next, found, same⟩ := Option.map_eq_some_iff.mp kind
    rw [Field.reference?, ← same] at written
    obtain rfl := Option.some.inj written
    have target : family.target? site call = some next := by
      rw [target?, FieldCall.messageType?, chosen]
      exact found
    have reached := knows next target
    obtain ⟨message, described, _, resolved⟩ := closure.named next reached
    have plain := derived.plain next (mem_of_own? (own?_of_message? found))
    rw [Registry.withoutDot_eq_self plain]
    exact ⟨element, next, message, rfl, found, reached, described, resolved⟩

/-- The value of a field fits the field, if the call is one for the type of the value. -/
theorem Reads.conforms_placeOf (reads : family.Reads keys registry policy site type json)
    (solid : json.isNull = false) {call : FieldCall} {field : Field}
    (element : ∀ own, call.kind = .message own → own = type.shape.element)
    (count : call.cardinality = type.shape.cardinality) (means : family.Means site call field)
    (knows : family.Knows keys site call) :
    registry.Conforms policy (registry.placeOf policy field) (.ofJson json) := by
  unfold Registry.placeOf
  cases h : registry.outlook policy field with
  | secret => exact .secret _
  | scalar => exact .free _
  | missing typeName =>
    obtain ⟨_, refers, missing⟩ := Registry.outlook_eq_missing_iff.mp h
    obtain ⟨_, _, _, _, _, _, _, resolved⟩ := exists_target derived closure means knows refers
    cases missing.symm.trans resolved
  | message nested =>
    obtain ⟨_, resolved⟩ := Registry.outlook_eq_message_iff.mp h
    obtain ⟨typeName, refers, found⟩ := Option.bind_eq_some_iff.mp resolved
    obtain ⟨own, next, message, chosen, meant, reached, described, same⟩ :=
      exists_target derived closure means knows refers
    obtain rfl := Option.some.inj (found.symm.trans same)
    obtain rfl := element own chosen
    rw [means.cardinality, count]
    exact reads.several next nested reached described meant solid

/-- The value of a field fits what the description has under its key. -/
theorem Reads.conforms_under {field : NamedField} {options : FieldOptions} {call : BuilderCall}
    (reads : family.Reads keys registry policy impl.path field.type json)
    (solid : json.isNull = false) (reached : family.Reached keys impl)
    (described : family.description? impl = some message)
    (named : message.WellNamed) (member : call ∈ impl.calls)
    (describes : Describes field options call) :
    registry.Conforms policy (registry.under policy (.message message) (options.key field))
      (.ofJson json) := by
  cases describes with
  | @field kind single chosen =>
    obtain ⟨own, plain, means⟩ := exists_plainField described member
    have found : message.plainField? (options.key field) = some own :=
      named.plainField?_eq_some_iff.mpr ⟨plain, means.name⟩
    rw [Registry.under_message_of_plainField? found]
    refine reads.conforms_placeOf derived closure solid (fun own same => ?_) rfl means
      (knows_of_field reached member)
    exact element_of_elementKind (chosen.trans (congrArg _ same))
  | group grouped one =>
    obtain ⟨listed, group, meant, alternatives⟩ := exists_alternatives described member
    obtain ⟨call, among, payload, rfl, inside, fits⟩ := reads.group group meant one solid
    obtain ⟨own, alternative, means⟩ := alternatives call among
    have foreign : message.plainField? (options.key field) = none :=
      Schema.find?_name_eq_none_iff.mpr fun field declared same =>
        named.apart field declared (same ▸ listed)
    have found : message.alternative? (options.key field) call.name = some own :=
      (Schema.find?_name_eq_some_iff (named.alternatives _ listed)).mpr ⟨alternative, means.name⟩
    have tree : Tree.ofJson (.object [(call.name, payload)]) =
        .object [(call.name, .ofJson payload)] := by
      simp [Tree.ofJson, Tree.ofMembers, inside]
    rw [Registry.under_message_of_listed foreign listed, tree]
    refine .object rfl (List.forall_mem_singleton.mpr ?_)
    rw [Registry.under_group_of_alternative? found]
    exact fits own means (knows_of_alternative reached member meant among)

/-- A record of all fields of a message type conforms to its description. -/
theorem conforms_record {item : Item} (made : deriveMessage item = .ok impl)
    (whole : ∀ field ∈ item.namedFields, field.isIncluded = true)
    (reached : family.Reached keys impl) (described : family.description? impl = some message)
    (named : message.WellNamed) {values : List Data}
    (each : ∀ pair ∈ item.namedFields.zip values, ∀ json, pair.2.toJson = .ok json →
      family.Reads keys registry policy item.path pair.1.type json) {members : List (String × Json)}
    (written : Data.fieldsToJson
      ((item.namedFields.zip values).map fun pair => (pair.1.key, pair.2)) = .ok members) :
    registry.Conforms policy (.message message) (.ofJson (.ofMembers members)) := by
  obtain ⟨_, fields, _, body, calls, _, _⟩ := deriveMessage_eq_ok made
  have listed : item.namedFields = fields := by rw [Item.namedFields, body]
  rw [← path_of_deriveMessage made] at each
  rw [listed] at whole each written
  obtain ⟨_, _, _, describedBy⟩ := describeFields_spec calls
  rw [List.filter_eq_self.mpr whole] at describedBy
  refine .object rfl fun member present => ?_
  obtain ⟨value, among, solid, same⟩ := Tree.exists_of_mem_ofMembers present
  obtain ⟨_, entry, key, own⟩ := Data.exists_of_fieldsToJson written _ among
  obtain ⟨pair, zipped, rfl⟩ := List.mem_map.mp entry
  obtain ⟨call, found, options, read, describes⟩ :=
    exists_counterpart describedBy (List.of_mem_zip zipped).1
  have under := (each pair zipped value own).conforms_under derived closure solid reached described
    named found describes
  rwa [same, ← show options.key pair.1 = member.1 from (NamedField.key_eq read).symm.trans key]

end Closed

section Values

variable (accepted : Family.derive program.messages program.oneofs program.meaning = .ok family)

include accepted

/-- A type that means no declaration of a message type means no message type. -/
theorem message?_eq_none (unknown : program.message? site type = none) :
    family.message? site type = none := by
  refine Option.eq_none_iff_forall_ne_some.mpr fun impl found => ?_
  obtain ⟨item, meant, _⟩ := Schema.exists_of_rel_some_right (rel_message? accepted site type) found
  cases unknown.symm.trans meant

/-- A type that means no declaration of a group means no group. -/
theorem oneof?_eq_none (unknown : program.oneof? site type = none) :
    family.oneof? site type = none := by
  refine Option.eq_none_iff_forall_ne_some.mpr fun impl found => ?_
  obtain ⟨item, meant, _⟩ := Schema.exists_of_rel_some_right (rel_oneof? accepted site type) found
  cases unknown.symm.trans meant

/-- Of a type that is neither declared nor a wrapper, a list or a map nothing is asked. -/
theorem reads_of_unmeant (bare : type.wrapped? = none) (shape : type.shape = ⟨.singular, type⟩)
    (message : program.message? site type = none) (group : program.oneof? site type = none) :
    family.Reads keys registry policy site type json := by
  have noMessage := message?_eq_none accepted message
  have noGroup := oneof?_eq_none accepted group
  constructor
  · intro impl own _ _ found
    rw [TypeExpr.unwrapped_of_bare bare] at found
    cases noMessage.symm.trans found
  · intro impl own _ _ found
    rw [shape] at found
    cases noMessage.symm.trans found
  · intro own found
    rw [shape] at found
    cases noGroup.symm.trans found

variable (regular : program.Regular)

include regular

/-- Of bytes nothing is asked, however they are handed over. -/
theorem reads_bytes (bytes : type.isBytes = true) :
    family.Reads keys registry policy site type json := by
  obtain ⟨item, vec⟩ := TypeExpr.exists_of_isBytes bytes
  obtain ⟨bare, map⟩ := TypeExpr.bare_of_vec vec
  obtain ⟨message, group⟩ := regular.unmeant_of_standard vec (by decide)
  have single : type.listItem? = none := by rw [TypeExpr.listItem?, bytes, if_pos rfl]
  exact reads_of_unmeant accepted bare (TypeExpr.shape_of_single bare single map) message group

/-- The document of a list is that of a list. If it is one of bytes, nothing is asked of it. -/
theorem reads_list {item : TypeExpr} (vec : type.typeArgument? "Vec" 0 = some item)
    {documents : List Json} (each : ∀ document ∈ documents,
      family.Reads keys registry policy site item document) :
    family.Reads keys registry policy site type (.array documents) := by
  cases bytes : type.isBytes with
  | true => exact reads_bytes accepted regular bytes
  | false =>
    obtain ⟨bare, _⟩ := TypeExpr.bare_of_vec vec
    obtain ⟨message, _⟩ := regular.unmeant_of_standard vec (by decide)
    have list : type.listItem? = some item := by
      rw [TypeExpr.listItem?, bytes, if_neg Bool.false_ne_true, vec]
    have shape := TypeExpr.shape_of_list bare list
    constructor
    · intro impl own _ _ found
      rw [TypeExpr.unwrapped_of_bare bare] at found
      cases (message?_eq_none accepted message).symm.trans found
    · intro impl own reached described found _
      rw [shape] at found ⊢
      rw [Tree.ofJson, Tree.ofItems_eq_map]
      refine .list (List.forall_mem_map.mpr fun document present => ?_)
      exact (each document present).single impl own reached described found
    · intro own _ one
      rw [shape] at one
      cases one

/-- The document of a map is that of an object. -/
theorem reads_map {value : TypeExpr} (map : type.mapValue? = some value)
    {members : List (String × Json)} (each : ∀ member ∈ members,
      family.Reads keys registry policy site value member.2) :
    family.Reads keys registry policy site type (.ofMembers members) := by
  obtain ⟨bare, vec⟩ := TypeExpr.bare_of_map map
  obtain ⟨name, either, written⟩ := TypeExpr.exists_of_mapValue? map
  have known : name ∈ standardNames := by rcases either with rfl | rfl <;> decide
  obtain ⟨message, _⟩ := regular.unmeant_of_standard written known
  have single := TypeExpr.listItem?_of_vec_eq_none vec
  have shape := TypeExpr.shape_of_map bare single map
  constructor
  · intro impl own _ _ found
    rw [TypeExpr.unwrapped_of_bare bare] at found
    cases (message?_eq_none accepted message).symm.trans found
  · intro impl own reached described found _
    rw [shape] at found ⊢
    refine .object rfl fun member present => ?_
    obtain ⟨document, among, _, same⟩ := Tree.exists_of_mem_ofMembers present
    rw [same]
    exact (each _ among).single impl own reached described found
  · intro own _ one
    rw [shape] at one
    cases one

variable (derived : family.Derived) (closure : family.IsClosure keys registry)

include derived closure

/-- The document of a message is that of a record. -/
theorem reads_message (named : registry.WellNamed) {item : Item}
    (meant : program.message? site type = some item)
    {values : List Data} (each : ∀ pair ∈ item.namedFields.zip values, ∀ json,
      pair.2.toJson = .ok json → family.Reads keys registry policy item.path pair.1.type json)
    {members : List (String × Json)} (written : Data.fieldsToJson
      ((item.namedFields.zip values).map fun pair => (pair.1.key, pair.2)) = .ok members) :
    family.Reads keys registry policy site type (.ofMembers members) := by
  obtain ⟨itself, shape⟩ := regular.shape_of_message? meant
  obtain ⟨own, found, made⟩ := Schema.exists_of_rel_some (rel_message? accepted site type) meant
  obtain ⟨path, _, listed⟩ := Option.bind_eq_some_iff.mp meant
  have member := List.mem_of_find?_eq_some listed
  have conforms : ∀ message, family.Reached keys own → family.description? own = some message →
      registry.Conforms policy (.message message) (.ofJson (.ofMembers members)) := by
    intro message reached described
    have present := (closure.mem_iff message).mpr ⟨own, reached, described⟩
    exact conforms_record derived closure made (regular.whole item member) reached described
      (named message present) each written
  constructor
  · intro impl message reached described meant
    rw [itself] at meant
    obtain rfl := Option.some.inj (found.symm.trans meant)
    exact conforms message reached described
  · intro impl message reached described meant _
    rw [shape] at meant ⊢
    obtain rfl := Option.some.inj (found.symm.trans meant)
    exact conforms message reached described
  · intro group other
    rw [shape] at other
    obtain ⟨twin, also, _⟩ := Schema.exists_of_rel_some_right (rel_oneof? accepted site type) other
    exact absurd also (regular.unmeant_of_meant meant)

/-- The document of a group has one member, under the name of an alternative. -/
theorem reads_group {item : Item} (meant : program.oneof? site type = some item)
    {variants : List Variant} (body : item.body = .enum variants) {variant : Variant}
    (chosen : variant ∈ variants) (wraps : newtypeOf variant.fields = .ok inner)
    (solid : json.isNull = false) (reads : family.Reads keys registry policy item.path inner json) :
    family.Reads keys registry policy site type (.object [(variant.key, json)]) := by
  obtain ⟨itself, shape⟩ := regular.shape_of_oneof? meant
  have noMessage : family.message? site type = none := by
    refine message?_eq_none accepted (Option.eq_none_iff_forall_ne_some.mpr fun other also => ?_)
    exact absurd meant (regular.unmeant_of_meant also)
  constructor
  · intro impl message _ _ found
    rw [itself] at found
    cases noMessage.symm.trans found
  · intro impl message _ _ found
    rw [shape] at found
    cases noMessage.symm.trans found
  · intro group found _ _
    rw [shape] at found
    obtain ⟨own, same, made⟩ := Schema.exists_of_rel_some (rel_oneof? accepted site type) meant
    obtain rfl := Option.some.inj (same.symm.trans found)
    obtain ⟨_, like, described, _⟩ := deriveOneof_eq_ok made
    rw [← path_of_deriveOneof made] at reads
    obtain rfl := ItemBody.enum.inj (body.symm.trans like)
    obtain ⟨_, _, _, describedBy⟩ := describeVariants_spec described
    obtain ⟨call, among, describes⟩ := exists_counterpart describedBy chosen
    cases describes with
    | @alternative other options kind again read included single kindly one =>
      obtain rfl := Except.ok.inj (wraps.symm.trans again)
      refine ⟨_, among, json, by rw [Variant.key_eq read], solid, fun field means knows => ?_⟩
      refine reads.conforms_placeOf derived closure solid (fun own same => ?_) rfl means knows
      exact element_of_elementKind (kindly.trans (congrArg _ same))

/-- Whatever data the value of a type hands over, the registry can make of its document what it has
to be in any field of the type. -/
theorem reads_of_holds (named : registry.WellNamed) {data : Data}
    (holds : program.Holds site type data) {json : Json}
    (written : data.toJson = .ok json) : family.Reads keys registry policy site type json := by
  induction holds generalizing json with
  | absent =>
    cases written
    exact reads_null
  | present optional _ ih =>
    exact (ih written).of_wrapped? (by rw [TypeExpr.wrapped?, optional, Option.some_or])
  | @boxed site type inner data box _ ih =>
    have plain : type.typeArgument? "Option" 0 = none :=
      TypeExpr.typeArgument?_of_ne box (by decide) 0
    exact (ih written).of_wrapped? (by rw [TypeExpr.wrapped?, plain, Option.none_or, box])
  | list vec _ ih =>
    obtain ⟨documents, listed, done⟩ := bind_eq_ok_iff.mp written
    cases done
    refine reads_list accepted regular vec fun document present => ?_
    obtain ⟨item, among, own⟩ := Data.exists_of_itemsToJson listed document present
    exact ih item among own
  | bytes bytes => exact reads_bytes accepted regular bytes
  | map map _ ih =>
    obtain ⟨members, listed, done⟩ := bind_eq_ok_iff.mp written
    cases done
    refine reads_map accepted regular map fun member present => ?_
    obtain ⟨entry, among, own⟩ := Data.exists_of_entriesToJson listed member present
    exact ih entry among own
  | message declared _ _ ih =>
    obtain ⟨members, listed, done⟩ := bind_eq_ok_iff.mp written
    cases done
    exact reads_message accepted regular derived closure named declared
      (fun pair zipped json own => ih pair zipped own) listed
  | group declared body chosen wraps _ solid ih =>
    obtain ⟨payload, own, done⟩ := bind_eq_ok_iff.mp written
    cases done
    have inside : payload.isNull = false := by
      cases payload with
      | null => exact absurd own solid
      | _ => rfl
    exact reads_group accepted regular derived closure declared body chosen wraps inside
      (ih own)
  | foreign foreign =>
    have single := TypeExpr.listItem?_of_vec_eq_none foreign.list
    exact reads_of_unmeant accepted foreign.bare
      (TypeExpr.shape_of_single foreign.bare single foreign.map) foreign.message foreign.group

end Values

end Family

end Derivation

end Redaction

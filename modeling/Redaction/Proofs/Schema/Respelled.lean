import Redaction.Proofs.Schema.Naming
import Redaction.Proofs.Schema.Reordered

/-!
# Names with and without a leading dot

A name that starts with no dot may be written with one in front of it. A type is declared without
the dot, and a reference is read without it, so the only trace is the text of a reference. Taking
the dots off the references of all types changes nothing in what the types are called, where
references lead and which types are cleared.
-/

namespace Redaction.Schema

open Relation
open Registry (Dotted withoutDot_eq_self)

/-- What is left of a name without its dot is a name that starts with no dot exactly if the name is
written as it is or with one dot in front. -/
theorem withoutDot_eq_iff {name written : String} (plain : ¬ Dotted name) :
    withoutDot written = name ↔ written = name ∨ written = "." ++ name := by
  constructor
  · rintro rfl
    by_cases dotted : Dotted written
    · right
      obtain ⟨rest, start⟩ := List.head?_eq_some_iff.mp dotted
      have shorter : withoutDot written = String.ofList rest := by
        rw [withoutDot, start]
        rfl
      rw [shorter, ← String.toList_inj, start]
      simp
    · exact .inl (withoutDot_eq_self dotted).symm
  · rintro (rfl | rfl)
    · exact withoutDot_eq_self plain
    · rw [withoutDot, String.toList_append]
      exact String.ofList_toList

/-- The kind with a reference written without its dot. -/
def Kind.plain : Kind → Kind
  | .message reference => .message (withoutDot reference)
  | .scalar => .scalar
  | .enumeration => .enumeration

/-- The field with its reference written without its dot. -/
def Field.plain (field : Field) : Field := { field with kind := field.kind.plain }

/-- Whether the name to which a field refers, if it refers to one, keeps no dot. -/
def Field.Undotted (field : Field) : Prop := ∀ typeName ∈ field.typeName?, ¬ Dotted typeName

instance (field : Field) : Decidable field.Undotted :=
  inferInstanceAs (Decidable (∀ typeName ∈ field.typeName?, ¬ Dotted typeName))

/-- A field refers to the same type without the dot. -/
theorem Field.typeName?_plain {field : Field} (undotted : field.Undotted) :
    field.plain.typeName? = field.typeName? := by
  cases kind : field.kind with
  | scalar => simp [typeName?, reference?, plain, Kind.plain, kind]
  | enumeration => simp [typeName?, reference?, plain, Kind.plain, kind]
  | message reference =>
    have refers : field.typeName? = some (withoutDot reference) := by
      simp [typeName?, reference?, kind]
    rw [refers]
    simp [typeName?, reference?, plain, Kind.plain, kind, withoutDot_eq_self (undotted _ refers)]

/-- The declaration with references written without their dots. -/
def Declaration.plain : Declaration → Declaration
  | .field single => .field single.plain
  | .oneof group alternatives => .oneof group (alternatives.map Field.plain)

/-- The fields that a declaration adds. -/
theorem Declaration.fields_plain (declaration : Declaration) :
    declaration.plain.fields = declaration.fields.map Field.plain := by
  cases declaration with
  | field field => rfl
  | oneof group alternatives =>
    simp only [plain, fields, List.map_map]
    rfl

/-- The groups that a declaration mentions. -/
theorem Declaration.groups_plain (declaration : Declaration) :
    declaration.plain.groups = declaration.groups := by
  cases declaration <;> rfl

namespace Message

/-- The type with references written without their dots. -/
def plain (message : Message) : Message :=
  { message with
    fields := message.fields.map Field.plain
    group_listed := by
      intro field member group owner
      obtain ⟨before, declared, rfl⟩ := List.mem_map.mp member
      exact message.group_listed before declared group owner }

variable {message other : Message}

/-- A type is its name, its fields and its groups. -/
theorem eq_of_parts (name : message.name = other.name) (fields : message.fields = other.fields)
    (groups : message.groups = other.groups) : message = other := by
  cases message
  cases other
  cases name
  cases fields
  cases groups
  rfl

/-- A declaration may be written without the dots. -/
theorem plain_declare (declaration : Declaration) :
    (message.declare declaration).plain = message.plain.declare declaration.plain := by
  refine eq_of_parts ?_ ?_ ?_
  · rw [name_declare]
    exact name_declare declaration
  · rw [fields_declare, Declaration.fields_plain]
    change (message.declare declaration).fields.map Field.plain = _
    rw [fields_declare, List.map_append]
    rfl
  · rw [groups_declare, Declaration.groups_plain]
    exact groups_declare declaration

/-- A type may be declared without the dots. -/
theorem plain_ofDeclarations {name : String} (undotted : ¬ Dotted (withoutDot name))
    (declarations : List Declaration) :
    (ofDeclarations name declarations).plain =
      ofDeclarations (withoutDot name) (declarations.map Declaration.plain) := by
  have start : (empty name).plain = empty (withoutDot name) :=
    eq_of_parts (withoutDot_eq_self undotted).symm rfl rfl
  rw [ofDeclarations, ofDeclarations, List.foldl_map, ← start]
  exact (List.foldl_hom plain fun message declaration => (plain_declare declaration).symm).symm

/-- The plain fields. -/
theorem plainFields_plain (message : Message) :
    message.plain.plainFields = message.plainFields.map Field.plain :=
  List.filter_map

/-- The alternatives of a group. -/
theorem alternatives_plain (message : Message) (group : String) :
    message.plain.alternatives group = (message.alternatives group).map Field.plain :=
  List.filter_map

/-- The keys that mean something. -/
theorem isKnownKey_plain (message : Message) (key : String) :
    message.plain.isKnownKey key = message.isKnownKey key := by
  rw [isKnownKey, plainFields_plain, List.any_map]
  rfl

/-- The names of the secret fields. -/
theorem sensitiveFields_plain (message : Message) :
    message.plain.sensitiveFields = message.sensitiveFields := by
  have filtered : message.plain.fields.filter Field.sensitive =
      (message.fields.filter Field.sensitive).map Field.plain := List.filter_map
  rw [sensitiveFields, filtered, List.map_map]
  rfl

/-- The references. -/
theorem references_plain (undotted : ∀ field ∈ message.fields, field.Undotted) :
    message.plain.references = message.references := by
  change (message.fields.map Field.plain).filterMap Field.typeName? = _
  rw [List.filterMap_map]
  exact List.filterMap_congr fun field declared => Field.typeName?_plain (undotted field declared)

end Message

namespace Registry

/-- The registry with references written without their dots. -/
def plain (registry : Registry) : Registry where
  messages := registry.messages.map Message.plain
  distinct := by
    rw [List.map_map]
    exact registry.distinct

variable {registry : Registry} {policy : Policy}

/-- The names of the types. -/
theorem names_plain (registry : Registry) : registry.plain.names = registry.names :=
  List.map_map

/-- Looking up a name. -/
theorem find?_plain (registry : Registry) (name : String) :
    registry.plain.find? name = (registry.find? name).map Message.plain :=
  List.find?_map

/-- What a reference means. -/
theorem get?_plain (registry : Registry) (reference : String) :
    registry.plain.get? reference = (registry.get? reference).map Message.plain :=
  registry.find?_plain _

/-- The type of the messages in a field. -/
theorem nested?_plain (registry : Registry) {field : Field} (undotted : field.Undotted) :
    registry.plain.nested? field.plain = (registry.nested? field).map Message.plain := by
  rw [nested?, nested?, Field.typeName?_plain undotted, Option.map_bind]
  exact congrArg _ (funext registry.get?_plain)

/-- A type may be added without the dots. -/
theorem insert?_plain (registry : Registry) (message : Message) :
    registry.plain.insert? message.plain = (registry.insert? message).map plain := by
  cases added : registry.insert? message with
  | none =>
    rw [insert?_eq_none_iff] at added
    exact insert?_eq_none_iff.mpr ((names_plain registry).symm ▸ added)
  | some larger =>
    obtain ⟨free, messages⟩ := insert?_eq_some_iff.mp added
    refine insert?_eq_some_iff.mpr ⟨(names_plain registry).symm ▸ free, ?_⟩
    change larger.messages.map Message.plain = _
    rw [messages, List.map_append]
    rfl

/-- A type may be added without the dots, unless its name is taken. -/
theorem insert_plain (registry : Registry) (message : Message) :
    registry.plain.insert message.plain = (registry.insert message).plain := by
  rw [insert, insert, insert?_plain]
  cases registry.insert? message <;> rfl

/-- Types may be added without the dots. -/
theorem plain_ofList (types : List Message) :
    (ofList types).plain = ofList (types.map Message.plain) := by
  rw [ofList, ofList, List.foldl_map]
  exact (List.foldl_hom plain insert_plain).symm

section Undotted

variable (undotted : registry.Undotted)

include undotted

/-- A name leads to the same names. -/
theorem leads_plain : registry.plain.Leads = registry.Leads := by
  funext source target
  refine propext ⟨?_, ?_⟩
  · rintro ⟨message, found, referred⟩
    rw [find?_plain] at found
    obtain ⟨origin, resolved, rfl⟩ := Option.map_eq_some_iff.mp found
    have member := (find?_eq_some_iff.mp resolved).1
    exact ⟨origin, resolved, Message.references_plain (undotted.typeName origin member) ▸ referred⟩
  · rintro ⟨message, resolved, referred⟩
    have member := (find?_eq_some_iff.mp resolved).1
    refine ⟨message.plain, by rw [find?_plain, resolved]; rfl, ?_⟩
    exact Message.references_plain (undotted.typeName message member) ▸ referred

/-- The same names are harmless. -/
theorem harmless_plain {name : String} :
    registry.plain.Harmless policy name ↔ registry.Harmless policy name := by
  have paths : registry.plain.LeadsTo = registry.LeadsTo :=
    congrArg ReflTransGen (leads_plain undotted)
  have visible (message : Message) :
      (∀ field ∈ message.plain.fields, policy.isSensitive field = false) ↔
        ∀ field ∈ message.fields, policy.isSensitive field = false := List.forall_mem_map
  rw [Harmless, Harmless, paths]
  refine forall_congr' fun target => imp_congr_right fun _ => ?_
  simp only [find?_plain, Option.map_eq_some_iff, exists_exists_and_eq_and, visible]

/-- The same types are cleared. -/
theorem cleared_plain (policy : Policy) :
    registry.plain.cleared policy = registry.cleared policy := by
  have clear (name : String) : registry.plain.mayContainSensitive policy name = false ↔
      registry.mayContainSensitive policy name = false := by
    rw [mayContainSensitive_eq_false_iff, mayContainSensitive_eq_false_iff, get?_plain]
    simp only [Option.map_eq_some_iff, exists_exists_and_eq_and]
    exact exists_congr fun message => and_congr_right fun _ => harmless_plain undotted
  rw [cleared, cleared, names_plain]
  refine List.filter_congr fun name _ => ?_
  rw [Bool.eq_iff_iff, Bool.not_eq_true', Bool.not_eq_true', clear]

end Undotted

/-- One more type without dots that are kept. -/
theorem undotted_insert {message : Message} (undotted : registry.Undotted)
    (name : ¬ Dotted message.name) (typeName : ∀ field ∈ message.fields, field.Undotted) :
    (registry.insert message).Undotted := by
  rw [insert]
  cases added : registry.insert? message with
  | none => exact undotted
  | some larger =>
    have all : larger.messages = registry.messages ++ [message] := (insert?_eq_some_iff.mp added).2
    constructor
    · rw [Option.getD_some, all, List.forall_mem_append, List.forall_mem_singleton]
      exact ⟨undotted.name, name⟩
    · rw [Option.getD_some, all, List.forall_mem_append, List.forall_mem_singleton]
      exact ⟨undotted.typeName, typeName⟩

end Registry

/-- Whether a name is written as it is or with one dot in front, and starts with no dot itself. -/
def Spells (name written : String) : Prop :=
  ¬ Dotted name ∧ (written = name ∨ written = "." ++ name)

instance (name written : String) : Decidable (Spells name written) :=
  inferInstanceAs (Decidable (_ ∧ _))

/-- What is left without the dot is the name. -/
theorem Spells.withoutDot_eq {name written : String} (spells : Spells name written) :
    withoutDot written = name :=
  (withoutDot_eq_iff spells.1).mpr spells.2

/-- Whether a field is written with its reference, if it has one, as it is or with one dot in front,
where the reference itself starts with no dot. -/
def Field.Spells (field written : Field) : Prop :=
  (∀ reference ∈ field.reference?, ¬ Dotted reference) ∧ written.plain = field

/-- Without the dot a field refers to the name to which it refers. -/
theorem Field.reference?_plain (field : Field) : field.plain.reference? = field.typeName? := by
  cases kind : field.kind <;> simp [typeName?, reference?, plain, Kind.plain, kind]

/-- The name to which a field refers keeps no dot. -/
theorem Field.Spells.undotted {field written : Field} (spells : field.Spells written) :
    written.Undotted := by
  obtain ⟨undotted, rfl⟩ := spells
  rwa [reference?_plain] at undotted

/-- A message type as it is written: its name and its declarations. -/
structure Written where
  /-- The name. -/
  name : String
  /-- The declarations in order. -/
  declarations : List Declaration
deriving DecidableEq

namespace Written

/-- The message type that is declared. -/
def message (written : Written) : Message := .ofDeclarations written.name written.declarations

/-- Whether a type is written with its name and its references as they are or with one dot in front,
where none of them starts with a dot itself. -/
structure Spells (type written : Written) : Prop where
  /-- The name. -/
  name : Schema.Spells type.name written.name
  /-- The references start with no dot. -/
  undotted : ∀ declaration ∈ type.declarations, ∀ field ∈ declaration.fields,
    ∀ reference ∈ field.reference?, ¬ Dotted reference
  /-- Without the dots the declarations are the same. -/
  declarations : written.declarations.map Declaration.plain = type.declarations

instance (type written : Written) : Decidable (type.Spells written) :=
  decidable_of_iff (Schema.Spells type.name written.name ∧
      (∀ declaration ∈ type.declarations, ∀ field ∈ declaration.fields,
        ∀ reference ∈ field.reference?, ¬ Dotted reference) ∧
      written.declarations.map Declaration.plain = type.declarations)
    ⟨fun ⟨name, undotted, declarations⟩ => ⟨name, undotted, declarations⟩,
      fun spells => ⟨spells.name, spells.undotted, spells.declarations⟩⟩

variable {type written : Written}

/-- Without the dots the same type is declared. -/
theorem Spells.plain_message (spells : type.Spells written) :
    written.message.plain = type.message := by
  obtain ⟨name, _, declarations⟩ := spells
  have plain : ¬ Dotted (withoutDot written.name) := name.withoutDot_eq ▸ name.1
  rw [message, message, Message.plain_ofDeclarations plain, name.withoutDot_eq, declarations]

/-- The declared type is named without the dot. -/
theorem Spells.name_message (spells : type.Spells written) : written.message.name = type.name :=
  (Message.ofDeclarations_spec _ _).1.trans spells.name.withoutDot_eq

/-- The references of the declared type keep no dot. -/
theorem Spells.undotted_message (spells : type.Spells written) :
    ∀ field ∈ written.message.fields, field.Undotted := by
  intro field declared
  rw [message, (Message.ofDeclarations_spec _ _).2.1] at declared
  obtain ⟨declaration, present, inside⟩ := List.mem_flatMap.mp declared
  have listed : declaration.plain ∈ type.declarations :=
    spells.declarations ▸ List.mem_map_of_mem present
  have plain : field.plain ∈ declaration.plain.fields :=
    declaration.fields_plain ▸ List.mem_map_of_mem inside
  exact Field.Spells.undotted ⟨spells.undotted _ listed _ plain, rfl⟩

end Written

/-- Whether a registry answers as another one to questions in which names are written with or
without a leading dot, up to the text of the references in the answers. -/
structure Registry.AnswersAs (twin registry : Registry) : Prop where
  /-- The same types may be added, and are then answered for. -/
  insert? : ∀ {type written : Written}, type.Spells written →
    (twin.insert? written.message).map Registry.plain = registry.insert? type.message
  /-- The same types are known. -/
  contains : ∀ {name written : String}, Spells name written →
    twin.contains written = registry.contains name
  /-- A reference means the same type. -/
  get? : ∀ {name written : String}, Spells name written →
    (twin.get? written).map Message.plain = registry.get? name
  /-- A type has the same fields. -/
  fieldsOf? : ∀ {name written : String}, Spells name written →
    (twin.fieldsOf? written).map (List.map Field.plain) = registry.fieldsOf? name
  /-- The same fields of a type are secret. -/
  sensitiveFields : ∀ {name written : String}, Spells name written →
    twin.sensitiveFields written = registry.sensitiveFields name
  /-- A field holds messages of the same type. -/
  nested? : ∀ {field written : Field}, field.Spells written →
    (twin.nested? written).map Message.plain = registry.nested? field
  /-- The names of the types are the same. -/
  typeNames : twin.typeNames = registry.typeNames

namespace Registry

/-- A dot in front of a name does not change what the name means. -/
theorem get?_of_spells (registry : Registry) {name written : String}
    (spells : Spells name written) : registry.get? written = registry.get? name := by
  rw [get?, get?, spells.withoutDot_eq, withoutDot_eq_self spells.1]

/-- A registry answers as it does when its references are written without their dots. -/
theorem answersAs_plain (registry : Registry) : registry.AnswersAs registry.plain where
  insert? spells := by rw [← insert?_plain, spells.plain_message]
  contains spells := by
    rw [contains, contains, names_plain, spells.withoutDot_eq, withoutDot_eq_self spells.1]
  get? spells := by rw [get?_plain, registry.get?_of_spells spells]
  fieldsOf? spells := by
    rw [fieldsOf?, fieldsOf?, get?_plain, registry.get?_of_spells spells, Option.map_map,
      Option.map_map]
    rfl
  sensitiveFields {name _} spells := by
    rw [sensitiveFields, sensitiveFields, get?_plain, registry.get?_of_spells spells]
    cases registry.get? name with
    | none => rfl
    | some message => exact message.sensitiveFields_plain.symm
  nested? spells := by rw [← nested?_plain registry spells.undotted, spells.2]
  typeNames := by rw [typeNames, typeNames, names_plain]

end Registry

section Schemas

variable {schema written : List Written} (spells : List.Forall₂ Written.Spells schema written)

include spells

/-- Without the dots the same types are declared. -/
theorem map_plain_message :
    (written.map Written.message).map Message.plain = schema.map Written.message := by
  induction spells with
  | nil => rfl
  | cons here _ ih =>
    rw [List.map_cons, List.map_cons, List.map_cons, ih, here.plain_message]

/-- Without the dots the same types are registered. -/
theorem Registry.plain_ofList_message :
    (Registry.ofList (written.map Written.message)).plain =
      Registry.ofList (schema.map Written.message) := by
  rw [plain_ofList, map_plain_message spells]

/-- No name of a registered type and no reference keeps a dot. -/
theorem Registry.undotted_ofList_message :
    (Registry.ofList (written.map Written.message)).Undotted := by
  have added : ∀ registry : Registry, registry.Undotted →
      ((written.map Written.message).foldl Registry.insert registry).Undotted := by
    induction spells with
    | nil => exact fun _ undotted => undotted
    | cons here _ ih =>
      intro registry undotted
      have name := here.name.1
      rw [← here.name_message] at name
      exact ih _ (undotted_insert undotted name here.undotted_message)
  exact added empty ⟨List.forall_mem_nil _, List.forall_mem_nil _⟩

end Schemas

end Redaction.Schema

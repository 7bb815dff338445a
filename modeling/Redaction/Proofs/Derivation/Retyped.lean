import Redaction.Catalogue.Basic
import Redaction.Proofs.Derivation.Requalified

/-!
# Declarations with requalified types

Two declarations differ in the paths in front of the names in the types of their fields. If the
types carry bytes alike, what is derived agrees: both are refused with the same complaint, or both
are accepted, with the same names, marks, numbers and kinds of values in the same order, and with
types that differ in such paths only. If the types of a field do not carry bytes alike, its
descriptions differ, unless the kind of the values is chosen.
-/

namespace Redaction.Derivation

/-- Two fields that differ at most in their types, which are related. -/
structure NamedField.Retyped (related : TypeExpr → TypeExpr → Prop) (field twin : NamedField) :
    Prop where
  /-- They have one name. -/
  ident : field.ident = twin.ident
  /-- Their types are related. -/
  type : related field.type twin.type
  /-- They have the same attributes. -/
  attributes : field.attributes = twin.attributes

/-- Two fields without names that differ at most in their types, which are related. -/
structure TupleField.Retyped (related : TypeExpr → TypeExpr → Prop) (field twin : TupleField) :
    Prop where
  /-- Their types are related. -/
  type : related field.type twin.type
  /-- They have the same attributes. -/
  attributes : field.attributes = twin.attributes

/-- The fields of two structs or variants that differ at most in their types, which are related. -/
inductive Fields.Retyped (related : TypeExpr → TypeExpr → Prop) : Fields → Fields → Prop where
  /-- Fields with names. -/
  | named {fields twins : List NamedField}
      (each : List.Forall₂ (NamedField.Retyped related) fields twins) :
      Retyped related (.named fields) (.named twins)
  /-- Fields without names. -/
  | tuple {fields twins : List TupleField}
      (each : List.Forall₂ (TupleField.Retyped related) fields twins) :
      Retyped related (.tuple fields) (.tuple twins)
  /-- No body at all. -/
  | unit : Retyped related .unit .unit

/-- Two variants that differ at most in the types of their fields, which are related. -/
structure Variant.Retyped (related : TypeExpr → TypeExpr → Prop) (variant twin : Variant) :
    Prop where
  /-- They have one name. -/
  ident : variant.ident = twin.ident
  /-- Their fields are related. -/
  fields : variant.fields.Retyped related twin.fields
  /-- They have the same attributes. -/
  attributes : variant.attributes = twin.attributes

/-- What two declarations declare, if they differ at most in the types of fields, which are
related. -/
inductive ItemBody.Retyped (related : TypeExpr → TypeExpr → Prop) : ItemBody → ItemBody → Prop where
  /-- A struct. -/
  | struct {fields twins : Fields} (same : fields.Retyped related twins) :
      Retyped related (.struct fields) (.struct twins)
  /-- An enumeration. -/
  | enum {variants twins : List Variant}
      (each : List.Forall₂ (Variant.Retyped related) variants twins) :
      Retyped related (.enum variants) (.enum twins)
  /-- A union. -/
  | union {fields twins : List NamedField}
      (each : List.Forall₂ (NamedField.Retyped related) fields twins) :
      Retyped related (.union fields) (.union twins)

/-- Two declarations that differ at most in the types of fields, which are related. -/
structure Item.Retyped (related : TypeExpr → TypeExpr → Prop) (item twin : Item) : Prop where
  /-- They have one name. -/
  ident : item.ident = twin.ident
  /-- They have the same attributes. -/
  attributes : item.attributes = twin.attributes
  /-- They have the same parameters. -/
  parameters : item.parameters = twin.parameters
  /-- What they declare is related. -/
  body : item.body.Retyped related twin.body

/-- Two kinds of values that differ at most in the spelling of the type. -/
inductive ElementKind.Requalified : ElementKind → ElementKind → Prop where
  /-- Single values. -/
  | scalar : Requalified .scalar .scalar
  /-- Names of a list. -/
  | enumeration : Requalified .enumeration .enumeration
  /-- Messages. -/
  | message {type twin : TypeExpr} (same : type.Requalified twin) :
      Requalified (.message type) (.message twin)

/-- Two descriptions of a field that differ at most in the spelling of the type. -/
structure FieldCall.Requalified (call twin : FieldCall) : Prop where
  /-- They give one name. -/
  name : call.name = twin.name
  /-- They give one kind of value. -/
  kind : call.kind.Requalified twin.kind
  /-- They give one number of values. -/
  cardinality : call.cardinality = twin.cardinality
  /-- Both fields are secret or neither is. -/
  secret : call.secret = twin.secret

/-- Two calls that differ at most in the spelling of the type. -/
inductive BuilderCall.Requalified : BuilderCall → BuilderCall → Prop where
  /-- A field. -/
  | field {call twin : FieldCall} (same : call.Requalified twin) :
      Requalified (.field call) (.field twin)
  /-- A group. -/
  | oneof (group : String) (secret : Bool) {type twin : TypeExpr} (same : type.Requalified twin) :
      Requalified (.oneof group type secret) (.oneof group twin secret)

/-- Two registrations that differ at most in the spelling of the type. -/
inductive Registration.Requalified : Registration → Registration → Prop where
  /-- A message type. -/
  | message {type twin : TypeExpr} (same : type.Requalified twin) :
      Requalified (.message type) (.message twin)
  /-- The alternatives of a group. -/
  | alternatives {type twin : TypeExpr} (same : type.Requalified twin) :
      Requalified (.alternatives type) (.alternatives twin)

/-- Two implementations of a message type that differ at most in the spelling of types. -/
structure MessageImpl.Requalified (impl twin : MessageImpl) : Prop where
  /-- They are derived from declarations of one name. -/
  ident : impl.ident = twin.ident
  /-- The message types have one name. -/
  typeName : impl.typeName = twin.typeName
  /-- The calls correspond. -/
  calls : List.Forall₂ BuilderCall.Requalified impl.calls twin.calls
  /-- The registrations correspond. -/
  registrations : List.Forall₂ Registration.Requalified impl.registrations twin.registrations

/-- Two implementations of a group that differ at most in the spelling of types. -/
structure OneofImpl.Requalified (impl twin : OneofImpl) : Prop where
  /-- They are derived from declarations of one name. -/
  ident : impl.ident = twin.ident
  /-- The alternatives correspond. -/
  alternatives : List.Forall₂ FieldCall.Requalified impl.alternatives twin.alternatives
  /-- The registrations correspond. -/
  registrations : List.Forall₂ TypeExpr.Requalified impl.registrations twin.registrations

/-- Two spellings of one type that carry bytes alike. -/
def TypeExpr.Respelled (type twin : TypeExpr) : Prop := type.Requalified twin ∧ type.SameBytes twin

/-- The kinds of values agree, where the types are spellings of one and scalars alike. -/
theorem agree_elementKind (kind : Option KindOption) {element twin : TypeExpr}
    (same : element.Requalified twin) (scalar : element.isScalar = twin.isScalar) :
    Agree ElementKind.Requalified (elementKind kind element) (elementKind kind twin) := by
  unfold elementKind
  split
  · exact .ok (.message same)
  · exact .ok .enumeration
  · exact .ok .scalar
  · exact .error _
  · rw [scalar]
    split
    · exact .ok .scalar
    · exact .ok (.message same)

section Field

variable {type twin : TypeExpr} (same : type.Respelled twin)

include same

/-- In two spellings of a field its shapes correspond. -/
theorem TypeExpr.Respelled.shape :
    type.shape.cardinality = twin.shape.cardinality ∧
      type.shape.element.Requalified twin.shape.element ∧
        type.shape.element.isScalar = twin.shape.element.isScalar := by
  obtain ⟨alike, bytes⟩ := same
  obtain ⟨count, scalar⟩ := alike.sameBytes_iff.mp bytes
  exact ⟨count, alike.elements count, scalar⟩

/-- The descriptions of a field agree. -/
theorem agree_describeField (name : String) (options : FieldOptions) :
    Agree FieldCall.Requalified (describeField name type options)
      (describeField name twin options) := by
  obtain ⟨count, elements, scalar⟩ := same.shape
  refine (agree_elementKind options.kind elements scalar).bind fun kind other kinds => ?_
  exact .ok ⟨rfl, kinds, count, rfl⟩

/-- The descriptions of a group agree. -/
theorem agree_describeOneof (group : String) (secret : Bool) :
    Agree (fun described other => described.1.Requalified other.1 ∧ described.2.Requalified other.2)
      (describeOneof group type secret) (describeOneof group twin secret) := by
  obtain ⟨count, elements, _⟩ := same.shape
  simp only [describeOneof]
  rw [count]
  split
  · exact .ok ⟨.oneof group secret elements, .alternatives elements⟩
  · exact .error _
  · exact .error _

end Field

/-- The types of the values of two descriptions correspond. -/
theorem FieldCall.Requalified.messageTypes {call twin : FieldCall} (same : call.Requalified twin) :
    List.Forall₂ TypeExpr.Requalified call.messageType?.toList twin.messageType?.toList := by
  obtain ⟨_, kinds, _, _⟩ := same
  unfold messageType?
  generalize call.kind = kind, twin.kind = other at kinds
  cases kinds with
  | scalar | enumeration => exact .nil
  | message same => exact .cons same .nil

/-- So do their registrations. -/
theorem FieldCall.Requalified.registrations {call twin : FieldCall} (same : call.Requalified twin) :
    List.Forall₂ Registration.Requalified (call.messageType?.toList.map .message)
      (twin.messageType?.toList.map .message) :=
  List.forall₂_map_left_iff.mpr (List.forall₂_map_right_iff.mpr
    (same.messageTypes.imp fun _ _ => .message))

/-- The descriptions of fields agree. -/
theorem agree_describeFields {fields twins : List NamedField}
    (each : List.Forall₂ (NamedField.Retyped TypeExpr.Respelled) fields twins)
    (seen : List String) :
    Agree (fun described other => List.Forall₂ BuilderCall.Requalified described.1 other.1 ∧
        List.Forall₂ Registration.Requalified described.2 other.2)
      (describeFields seen fields) (describeFields seen twins) := by
  induction each generalizing seen with
  | nil => exact .ok ⟨.nil, .nil⟩
  | @cons field twin rest others here _ ih =>
    obtain ⟨ident, type, attributes⟩ := field
    obtain ⟨_, other, _⟩ := twin
    obtain ⟨rfl, same, rfl⟩ := here
    rw [describeFields, describeFields]
    refine (Agree.refl _).bind ?_
    rintro options _ rfl
    split
    · exact ih seen
    · dsimp only
      split
      · exact .error _
      · have later := ih (options.name.getD (plainIdent ident) :: seen)
        split
        · refine (agree_describeOneof same _ _).bind fun described own group => ?_
          exact later.bind fun _ _ listed =>
            .ok ⟨.cons group.1 listed.1, .cons group.2 listed.2⟩
        · refine (agree_describeField same _ _).bind fun described own call => ?_
          exact later.bind fun _ _ listed =>
            .ok ⟨.cons (.field call) listed.1, List.rel_append call.registrations listed.2⟩

/-- The types that variants wrap agree. -/
theorem agree_newtypeOf {fields twins : Fields} (same : fields.Retyped related twins) :
    Agree related (newtypeOf fields) (newtypeOf twins) := by
  cases same with
  | named | unit => exact .error _
  | tuple each =>
    cases each with
    | nil => exact .error _
    | cons here rest =>
      cases rest with
      | nil => exact .ok here.type
      | cons => exact .error _

/-- The descriptions of variants agree. -/
theorem agree_describeVariants {variants twins : List Variant}
    (each : List.Forall₂ (Variant.Retyped TypeExpr.Respelled) variants twins)
    (seen : List String) :
    Agree (fun described other => List.Forall₂ FieldCall.Requalified described.1 other.1 ∧
        List.Forall₂ TypeExpr.Requalified described.2 other.2)
      (describeVariants seen variants) (describeVariants seen twins) := by
  induction each generalizing seen with
  | nil => exact .ok ⟨.nil, .nil⟩
  | @cons variant twin rest others here _ ih =>
    obtain ⟨ident, fields, attributes⟩ := variant
    obtain ⟨_, other, _⟩ := twin
    obtain ⟨rfl, wrapped, rfl⟩ := here
    rw [describeVariants, describeVariants]
    refine (agree_newtypeOf wrapped).bind fun type other same => ?_
    refine (Agree.refl _).bind ?_
    rintro options _ rfl
    split
    · exact .error _
    · split
      · exact .error _
      · dsimp only
        split
        · exact .error _
        · refine (agree_describeField same _ _).bind fun described own call => ?_
          rw [call.cardinality]
          split
          · exact .error _
          · exact (ih _).bind fun _ _ listed =>
              .ok ⟨.cons call listed.1, List.rel_append call.messageTypes listed.2⟩

/-- What is derived from a struct agrees. -/
theorem agree_deriveMessage {item twin : Item} (same : item.Retyped TypeExpr.Respelled twin) :
    Agree MessageImpl.Requalified (deriveMessage item) (deriveMessage twin) := by
  obtain ⟨ident, attributes, parameters, body⟩ := item
  obtain ⟨_, _, _, other⟩ := twin
  obtain ⟨rfl, rfl, rfl, bodies⟩ := same
  rw [deriveMessage, deriveMessage]
  refine (Agree.refl _).bind fun _ _ _ => ?_
  refine (Agree.refl _).bind ?_
  rintro options _ rfl
  cases bodies with
  | enum | union => exact .error _
  | struct fields =>
    cases fields with
    | tuple | unit => exact .error _
    | named each =>
      exact (agree_describeFields each []).bind fun _ _ described =>
        .ok ⟨rfl, rfl, described.1, described.2⟩

/-- What is derived from an enumeration agrees. -/
theorem agree_deriveOneof {item twin : Item} (same : item.Retyped TypeExpr.Respelled twin) :
    Agree OneofImpl.Requalified (deriveOneof item) (deriveOneof twin) := by
  obtain ⟨ident, attributes, parameters, body⟩ := item
  obtain ⟨_, _, _, other⟩ := twin
  obtain ⟨rfl, rfl, rfl, bodies⟩ := same
  rw [deriveOneof, deriveOneof]
  refine (Agree.refl _).bind fun _ _ _ => ?_
  refine (Agree.refl _).bind ?_
  rintro options _ rfl
  split
  · exact .error _
  · cases bodies with
    | struct | union => exact .error _
    | enum each =>
      exact (agree_describeVariants each []).bind fun _ _ described =>
        .ok ⟨rfl, described.1, described.2⟩

/-- The description of a field whose kind is left to the type. -/
theorem describeField_of_free {options : FieldOptions} (free : options.kind = none)
    (name : String) (type : TypeExpr) :
    describeField name type options = .ok
      { name
        kind := if type.shape.element.isScalar then .scalar else .message type.shape.element
        cardinality := type.shape.cardinality
        secret := options.secret } := by
  rw [describeField, free]
  rfl

/-- Two spellings of a field whose kind is left to the type are described alike exactly if they
carry bytes alike. -/
theorem agree_describeField_iff {type twin : TypeExpr} (alike : type.Requalified twin)
    {options : FieldOptions} (free : options.kind = none) (name : String) :
    Agree FieldCall.Requalified (describeField name type options)
        (describeField name twin options) ↔ type.SameBytes twin := by
  refine ⟨fun agree => ?_, fun bytes => agree_describeField ⟨alike, bytes⟩ name options⟩
  rw [describeField_of_free free, describeField_of_free free] at agree
  cases agree with
  | ok same =>
    obtain ⟨_, kinds, count, _⟩ := same
    refine alike.sameBytes_iff.mpr ⟨count, ?_⟩
    dsimp only at kinds
    cases own : type.shape.element.isScalar <;> cases other : twin.shape.element.isScalar
    · rfl
    · rw [own, other] at kinds
      cases kinds
    · rw [own, other] at kinds
      cases kinds
    · rfl

/-- Paths in front of names change nothing but bytes. Let two declarations differ at most in such
paths, at any depth of the types of their fields, and let these types carry bytes alike. Then what
is derived from them, as a message type or as a group, agrees: it is refused with one complaint, or
it is accepted with the same names, marks, numbers and kinds of values. Bytes are no more of a
condition than it takes: a field whose kind is left to its type is described alike in two spellings
exactly if these carry bytes alike. -/
theorem paths_change_only_bytes {item twin : Item} (same : item.Retyped TypeExpr.Respelled twin) :
    Agree MessageImpl.Requalified (deriveMessage item) (deriveMessage twin) ∧
      Agree OneofImpl.Requalified (deriveOneof item) (deriveOneof twin) ∧
      ∀ (type other : TypeExpr) (name : String) (options : FieldOptions),
        type.Requalified other → options.kind = none →
        (Agree FieldCall.Requalified (describeField name type options)
          (describeField name other options) ↔ type.SameBytes other) :=
  ⟨agree_deriveMessage same, agree_deriveOneof same,
    fun _ _ name _ alike free => agree_describeField_iff alike free name⟩

section Upload

open Catalogue

/-- A standard type, written in full. -/
def inFull (place name : String) (arguments : List TypeExpr) : TypeExpr :=
  .path true [.plain "std", .plain place, .generic name (arguments.map .type)]

/-- The declaration of an upload, with its parts, its chunks and its owner of the types given. -/
def upload (parts chunks owner : TypeExpr) : Item :=
  Catalogue.message "Upload" []
    [Catalogue.field "parts" parts, Catalogue.field "chunks" chunks [mark "secret"],
      Catalogue.field "owner" owner]

/-- What is derived from the declaration of an upload. -/
def uploadImpl : MessageImpl where
  ident := "Upload"
  typeName := "Upload"
  calls := [.field { name := "parts", kind := .scalar, cardinality := .repeated, secret := false },
    .field { name := "chunks", kind := .scalar, cardinality := .map, secret := true },
    .field { name := "owner", kind := .message (.named "User"), cardinality := .singular
             secret := false }]
  registrations := [.message (.named "User")]

/-- A type written in full is a spelling of the one in few words. -/
theorem requalified_inFull (place name : String) {arguments twins : List TypeExpr}
    (each : List.Forall₂ TypeExpr.Requalified arguments twins) :
    (TypeExpr.applied name arguments).Requalified (inFull place name twins) := by
  refine .path false true [] [.plain "std", .plain place] (.generic name ?_)
  rw [List.forall₂_map_left_iff, List.forall₂_map_right_iff]
  exact each.imp fun _ _ => .type

/-- The types of an upload in few words and in full are spellings of one, with bytes alike. -/
theorem upload_types :
    (listOf (optional (.named "Bytes"))).Respelled
        (inFull "vec" "Vec"
          [inFull "option" "Option" [.path false [.plain "bytes", .plain "Bytes"]]]) ∧
      (mapOf string bytes).Respelled
        (inFull "collections" "BTreeMap"
          [.path true [.plain "std", .plain "string", .plain "String"],
            inFull "vec" "Vec" [.named "u8"]]) ∧
      (boxed (.named "User")).Respelled
        (inFull "boxed" "Box" [.path false [.plain "crate", .plain "User"]]) := by
  have parts := requalified_inFull "vec" "Vec" (.cons (requalified_inFull "option" "Option"
    (.cons (.path false false [] [.plain "bytes"] (.plain "Bytes")) .nil)) .nil)
  have chunks := requalified_inFull "collections" "BTreeMap"
    (.cons (.path false true [] [.plain "std", .plain "string"] (.plain "String"))
      (.cons (requalified_inFull "vec" "Vec" (.cons (.path false false [] [] (.plain "u8")) .nil))
        .nil))
  have owner := requalified_inFull "boxed" "Box"
    (.cons (.path false false [] [.plain "crate"] (.plain "User")) .nil)
  exact ⟨⟨parts, parts.sameBytes_iff.mpr ⟨by cbv, by cbv⟩⟩,
    ⟨chunks, chunks.sameBytes_iff.mpr ⟨by cbv, by cbv⟩⟩,
    ⟨owner, owner.sameBytes_iff.mpr ⟨by cbv, by cbv⟩⟩⟩

/-- An upload in few words and one in full are derived alike, with bytes as single values in
both. -/
theorem upload_paths_agree :
    let short := upload (listOf (optional (.named "Bytes"))) (mapOf string bytes)
      (boxed (.named "User"))
    let full := upload
      (inFull "vec" "Vec" [inFull "option" "Option" [.path false [.plain "bytes", .plain "Bytes"]]])
      (inFull "collections" "BTreeMap" [.path true [.plain "std", .plain "string", .plain "String"],
        inFull "vec" "Vec" [.named "u8"]])
      (inFull "boxed" "Box" [.path false [.plain "crate", .plain "User"]])
    short.Retyped TypeExpr.Respelled full ∧ deriveMessage short = .ok uploadImpl ∧
      ∃ impl, deriveMessage full = .ok impl ∧ uploadImpl.Requalified impl := by
  intro short full
  obtain ⟨parts, chunks, owner⟩ := upload_types
  have same : short.Retyped TypeExpr.Respelled full :=
    ⟨rfl, rfl, rfl, .struct (.named
      (.cons ⟨rfl, parts, rfl⟩ (.cons ⟨rfl, chunks, rfl⟩ (.cons ⟨rfl, owner, rfl⟩ .nil))))⟩
  have derived : deriveMessage short = .ok uploadImpl := by cbv
  have agree := (paths_change_only_bytes same).1
  rw [derived] at agree
  refine ⟨same, derived, ?_⟩
  cases made : deriveMessage full with
  | error complaint =>
    rw [made] at agree
    cases agree
  | ok impl =>
    rw [made] at agree
    cases agree with
    | ok implies => exact ⟨impl, rfl, implies⟩

end Upload

section Chunk

open Catalogue

/-- The list whose items are bytes with a path in front of their name. -/
def numbers : TypeExpr :=
  listOf (.path true [.plain "core", .plain "primitive", .plain "u8"])

/-- The declaration of a group with one alternative. -/
def chunk (type : TypeExpr) : Item := Catalogue.group "Chunk" [alternative "Raw" type]

/-- A path in front of the name of bytes makes a list of numbers of what was bytes: a field that had
a single value has several, and an alternative that was accepted is refused. -/
theorem qualified_byte_divides :
    bytes.Requalified numbers ∧
      describeField "raw" bytes {} =
        .ok { name := "raw", kind := .scalar, cardinality := .singular, secret := false } ∧
      describeField "raw" numbers {} =
        .ok { name := "raw", kind := .scalar, cardinality := .repeated, secret := false } ∧
      (chunk bytes).Retyped TypeExpr.Requalified (chunk numbers) ∧
      deriveOneof (chunk bytes) = .ok
        { ident := "Chunk"
          alternatives :=
            [{ name := "raw", kind := .scalar, cardinality := .singular, secret := false }]
          registrations := [] } ∧
      deriveOneof (chunk numbers) = .error .severalAlternativeValues := by
  have alike : bytes.Requalified numbers := by
    refine .path false false [] [] (.generic "Vec" (.cons (.type ?_) .nil))
    exact .path false true [] [.plain "core", .plain "primitive"] (.plain "u8")
  have body : (chunk bytes).Retyped TypeExpr.Requalified (chunk numbers) := by
    refine ⟨rfl, rfl, rfl, .enum (.cons ?_ .nil)⟩
    exact ⟨rfl, .tuple (.cons ⟨alike, rfl⟩ .nil), rfl⟩
  refine ⟨alike, by cbv, by cbv, body, ?_, ?_⟩
  · with_unfolding_all rfl
  · with_unfolding_all rfl

end Chunk

end Redaction.Derivation

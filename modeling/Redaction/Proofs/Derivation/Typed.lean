import Redaction.Proofs.Derivation.Described
import Redaction.Proofs.Schema.WellNamed
import Redaction.Serial.Document

/-!
# Data of the types of a program

A program declares message types and groups, and what the types in a declaration mean depends on
where it stands. This module says which data the values of a type hand over to be turned into a
document. It goes by the meaning of the type alone: absent values are nothing, boxes do not show,
lists and maps hold values of their arguments, a message is a record of its fields and a group a
label with one value. What the schema takes the type for plays no part.
-/

namespace Redaction.Derivation

open Serial (Data)

/-- The names that are taken in their standard meaning. -/
def standardNames : List String := ["Option", "Box", "Vec", "HashMap", "BTreeMap"]

/-- Whether a type has arguments behind a name that is taken in its standard meaning. -/
def TypeExpr.IsStandard (type : TypeExpr) : Prop :=
  ∃ name ∈ standardNames, ∃ place, (type.typeArgument? name place).isSome

/-- The fields of a struct that have names. -/
def Item.namedFields (item : Item) : List NamedField :=
  match item.body with
  | .struct (.named fields) => fields
  | _ => []

/-- The key under which the value of a field is written. -/
def NamedField.key (field : NamedField) : String :=
  match FieldOptions.ofAttributes field.attributes with
  | .ok options => options.key field
  | .error _ => plainIdent field.ident

/-- The key under which the value of a variant is written. -/
def Variant.key (variant : Variant) : String :=
  match FieldOptions.ofAttributes variant.attributes with
  | .ok options => options.alternativeKey variant
  | .error _ => snakeCase (plainIdent variant.ident)

/-- The data of a message with these values in its fields. -/
def Item.record (item : Item) (values : List Data) : Data :=
  .record ((item.namedFields.zip values).map fun pair => (pair.1.key, pair.2))

/-- A field with readable options is written under the key that they give. -/
theorem NamedField.key_eq {field : NamedField} {options : FieldOptions}
    (read : FieldOptions.ofAttributes field.attributes = .ok options) :
    field.key = options.key field := by
  rw [NamedField.key, read]

/-- A variant with readable options is written under the key that they give. -/
theorem Variant.key_eq {variant : Variant} {options : FieldOptions}
    (read : FieldOptions.ofAttributes variant.attributes = .ok options) :
    variant.key = options.alternativeKey variant := by
  rw [Variant.key, read]

/-- The declarations of a program. -/
structure Program where
  /-- The message types. -/
  messages : List Item
  /-- The groups. -/
  oneofs : List Item
  /-- The meaning of the types in the declarations. -/
  meaning : Meaning := .byName

namespace Program

/-- The declaration of the message type that a type at a site means. -/
def message? (program : Program) (site : String) (type : TypeExpr) : Option Item := do
  let path ← program.meaning site type
  program.messages.find? fun item => item.path == path

/-- The declaration of the group that a type at a site means. -/
def oneof? (program : Program) (site : String) (type : TypeExpr) : Option Item := do
  let path ← program.meaning site type
  program.oneofs.find? fun item => item.path == path

/-- What is asked of the names in a program, and of its fields. -/
structure Regular (program : Program) : Prop where
  /-- The name of a message type holds no dot. -/
  words : ∀ item ∈ program.messages, '.' ∉ item.ident.toList
  /-- The names with a standard meaning are not taken for declared ones. -/
  standard : ∀ site type, type.IsStandard →
    program.message? site type = none ∧ program.oneof? site type = none
  /-- No message type and no group share a path. -/
  apart : ∀ item ∈ program.messages, ∀ group ∈ program.oneofs, item.path ≠ group.path
  /-- No field is left out. -/
  whole : ∀ item ∈ program.messages, ∀ field ∈ item.namedFields, field.isIncluded = true

/-- A type of which the program knows nothing: it has no standard meaning and is not declared. -/
structure Foreign (program : Program) (site : String) (type : TypeExpr) : Prop where
  /-- It is no wrapper. -/
  bare : type.wrapped? = none
  /-- It is no list. -/
  list : type.typeArgument? "Vec" 0 = none
  /-- It is no map. -/
  map : type.mapValue? = none
  /-- It is no message type. -/
  message : program.message? site type = none
  /-- It is no group. -/
  group : program.oneof? site type = none

/-- Which data a value of a type hands over that is written in the declaration at a site. -/
inductive Holds (program : Program) : String → TypeExpr → Data → Prop where
  /-- An absent value. -/
  | absent {site : String} {type inner : TypeExpr}
      (optional : type.typeArgument? "Option" 0 = some inner) : Holds program site type .nothing
  /-- A value that might have been absent. -/
  | present {site : String} {type inner : TypeExpr} {data : Data}
      (optional : type.typeArgument? "Option" 0 = some inner)
      (inside : Holds program site inner data) : Holds program site type (.present data)
  /-- A boxed value. -/
  | boxed {site : String} {type inner : TypeExpr} {data : Data}
      (box : type.typeArgument? "Box" 0 = some inner) (inside : Holds program site inner data) :
      Holds program site type data
  /-- A list. -/
  | list {site : String} {type item : TypeExpr} {items : List Data}
      (vec : type.typeArgument? "Vec" 0 = some item)
      (each : ∀ data ∈ items, Holds program site item data) :
      Holds program site type (.sequence items)
  /-- A list of bytes that is handed over as a whole. -/
  | bytes {site : String} {type : TypeExpr} (bytes : type.isBytes = true) (content : List UInt8) :
      Holds program site type (.bytes content)
  /-- A map with any keys. -/
  | map {site : String} {type value : TypeExpr} {entries : List (Data × Data)}
      (map : type.mapValue? = some value)
      (each : ∀ entry ∈ entries, Holds program site value entry.2) :
      Holds program site type (.map entries)
  /-- A message, with all its fields in their order. The types of these are written in its own
  declaration. -/
  | message {site : String} {type : TypeExpr} {item : Item} {values : List Data}
      (declared : program.message? site type = some item)
      (count : values.length = item.namedFields.length)
      (each : ∀ pair ∈ item.namedFields.zip values, Holds program item.path pair.1.type pair.2) :
      Holds program site type (item.record values)
  /-- A group, with the value of one variant, which is written as more than `null`. -/
  | group {site : String} {type inner : TypeExpr} {item : Item} {variants : List Variant}
      {variant : Variant} {data : Data} (declared : program.oneof? site type = some item)
      (body : item.body = .enum variants) (chosen : variant ∈ variants)
      (wraps : newtypeOf variant.fields = .ok inner) (inside : Holds program item.path inner data)
      (solid : data.toJson ≠ .ok .null) : Holds program site type (.labelled variant.key data)
  /-- Anything, where nothing is known of the type. -/
  | foreign {site : String} {type : TypeExpr} (foreign : program.Foreign site type) (data : Data) :
      Holds program site type data

end Program

namespace TypeExpr

variable {type argument : TypeExpr} {name : String} {place : Nat}

/-- Only the last part of a path has arguments, and it has the name that is looked for. -/
theorem exists_segment_of_typeArgument? (found : type.typeArgument? name place = some argument) :
    ∃ segment, type.lastSegment? = some segment ∧ segment.name = name := by
  unfold typeArgument? at found
  split at found
  · next last arguments here =>
    split at found
    · next same => exact ⟨.generic last arguments, here, same⟩
    · cases found
  · cases found

/-- A type that is written with types as arguments has these. -/
theorem typeArgument?_applied (name : String) (arguments : List TypeExpr) (place : Nat) :
    (applied name arguments).typeArgument? name place = arguments[place]? := by
  have types : (arguments.map Argument.type).filterMap Argument.type? = arguments := by
    rw [List.filterMap_map]
    exact List.filterMap_some
  simp only [applied, typeArgument?, lastSegment?, List.getLast?_singleton, if_pos, types]

/-- A type with arguments under one name has none under another. -/
theorem typeArgument?_of_ne (found : type.typeArgument? name place = some argument)
    {other : String} (different : name ≠ other) (index : Nat) :
    type.typeArgument? other index = none := by
  refine Option.eq_none_iff_forall_ne_some.mpr fun own again => different ?_
  obtain ⟨segment, last, rfl⟩ := exists_segment_of_typeArgument? found
  obtain ⟨twin, same, rfl⟩ := exists_segment_of_typeArgument? again
  rw [Option.some.inj (last.symm.trans same)]

/-- By names, a standard type means its own standard name. -/
theorem IsStandard.byName (standard : type.IsStandard) (site : String) :
    ∃ name ∈ standardNames, Meaning.byName site type = some name := by
  obtain ⟨name, known, place, given⟩ := standard
  obtain ⟨argument, found⟩ := Option.isSome_iff_exists.mp given
  obtain ⟨segment, last, rfl⟩ := exists_segment_of_typeArgument? found
  have unmarked : ∀ name ∈ standardNames, plainIdent name = name := by decide
  refine ⟨segment.name, known, ?_⟩
  rw [Meaning.byName, last, Option.map_some, unmarked segment.name known]

/-- What stands inside a wrapper decides what is left without wrappers. -/
theorem unwrapped_of_wrapped? {inner : TypeExpr} (wraps : type.wrapped? = some inner) :
    type.unwrapped = inner.unwrapped := by
  rw [unwrapped]
  split
  · next other found => rw [Option.some.inj (found.symm.trans wraps)]
  · next none => cases none.symm.trans wraps

/-- A type that is no wrapper is left as it is. -/
theorem unwrapped_of_bare (bare : type.wrapped? = none) : type.unwrapped = type := by
  rw [unwrapped]
  split
  · next found => cases found.symm.trans bare
  · rfl

/-- What stands inside a wrapper decides the shape. -/
theorem shape_of_wrapped? {inner : TypeExpr} (wraps : type.wrapped? = some inner) :
    type.shape = inner.shape := by
  rw [shape, shape, unwrapped_of_wrapped? wraps]

section Bare

variable (bare : type.wrapped? = none)

include bare

/-- The shape of a list. -/
theorem shape_of_list {item : TypeExpr} (list : type.listItem? = some item) :
    type.shape = ⟨.repeated, item.unwrapped⟩ := by
  simp only [shape, unwrapped_of_bare bare, list]

/-- The shape of a map. -/
theorem shape_of_map (single : type.listItem? = none) {value : TypeExpr}
    (map : type.mapValue? = some value) : type.shape = ⟨.map, value.unwrapped⟩ := by
  simp only [shape, unwrapped_of_bare bare, single, map]

/-- The shape of anything else. -/
theorem shape_of_single (single : type.listItem? = none) (map : type.mapValue? = none) :
    type.shape = ⟨.singular, type⟩ := by
  simp only [shape, unwrapped_of_bare bare, single, map]

end Bare

/-- A list is no wrapper and no map. -/
theorem bare_of_vec {item : TypeExpr} (vec : type.typeArgument? "Vec" 0 = some item) :
    type.wrapped? = none ∧ type.mapValue? = none := by
  have none : ∀ other, "Vec" ≠ other → ∀ index, type.typeArgument? other index = none :=
    fun _ different index => typeArgument?_of_ne vec different index
  refine ⟨?_, ?_⟩
  · rw [wrapped?, none "Option" (by decide), none "Box" (by decide), Option.or_none]
  · rw [mapValue?, none "HashMap" (by decide), none "BTreeMap" (by decide), Option.or_none]

/-- A map is written with one of the two names for maps. -/
theorem exists_of_mapValue? {value : TypeExpr} (map : type.mapValue? = some value) :
    ∃ name, (name = "HashMap" ∨ name = "BTreeMap") ∧ type.typeArgument? name 1 = some value := by
  rcases Option.or_eq_some_iff.mp map with hash | ⟨_, tree⟩
  · exact ⟨"HashMap", .inl rfl, hash⟩
  · exact ⟨"BTreeMap", .inr rfl, tree⟩

/-- A map is no wrapper and no list. -/
theorem bare_of_map {value : TypeExpr} (map : type.mapValue? = some value) :
    type.wrapped? = none ∧ type.typeArgument? "Vec" 0 = none := by
  obtain ⟨name, either, found⟩ := exists_of_mapValue? map
  have none : ∀ other, name ≠ other → ∀ index, type.typeArgument? other index = none :=
    fun _ different index => typeArgument?_of_ne found different index
  have apart : name ≠ "Option" ∧ name ≠ "Box" ∧ name ≠ "Vec" := by
    rcases either with rfl | rfl <;> decide
  refine ⟨?_, none "Vec" apart.2.2 0⟩
  rw [wrapped?, none "Option" apart.1, none "Box" apart.2.1, Option.or_none]

/-- A type that is no list is none of bytes either. -/
theorem listItem?_of_vec_eq_none (vec : type.typeArgument? "Vec" 0 = none) :
    type.listItem? = none := by
  rw [listItem?, isBytes, vec]
  rfl

/-- A type that is no standard one is no wrapper, no list and no map. -/
theorem bare_of_not_standard (plain : ¬ type.IsStandard) :
    type.wrapped? = none ∧ type.typeArgument? "Vec" 0 = none ∧ type.mapValue? = none := by
  have none : ∀ name ∈ standardNames, ∀ index, type.typeArgument? name index = none :=
    fun name known index =>
      Option.not_isSome_iff_eq_none.mp fun found => plain ⟨name, known, index, found⟩
  refine ⟨?_, none "Vec" (by decide) 0, ?_⟩
  · rw [wrapped?, none "Option" (by decide), none "Box" (by decide), Option.or_none]
  · rw [mapValue?, none "HashMap" (by decide), none "BTreeMap" (by decide), Option.or_none]

/-- A type that is no standard one stands for itself, whatever wrappers are taken off. -/
theorem shape_of_not_standard (plain : ¬ type.IsStandard) :
    type.unwrapped = type ∧ type.shape = ⟨.singular, type⟩ := by
  obtain ⟨bare, vec, map⟩ := bare_of_not_standard plain
  have single := listItem?_of_vec_eq_none vec
  exact ⟨unwrapped_of_bare bare, shape_of_single bare single map⟩

/-- Bytes are a list. -/
theorem exists_of_isBytes (bytes : type.isBytes = true) :
    ∃ item, type.typeArgument? "Vec" 0 = some item := by
  rw [isBytes] at bytes
  cases vec : type.typeArgument? "Vec" 0 with
  | some item => exact ⟨item, rfl⟩
  | none =>
    rw [vec] at bytes
    cases bytes

end TypeExpr

namespace Program.Regular

variable {program : Program} {site : String} {type : TypeExpr}

/-- A program in which names tell the declarations apart is regular if none of them has a standard
name. -/
theorem byName {messages oneofs : List Item}
    (words : ∀ item ∈ messages, '.' ∉ item.ident.toList)
    (standard : ∀ item ∈ messages ++ oneofs, item.path ∉ standardNames)
    (apart : ∀ item ∈ messages, ∀ group ∈ oneofs, item.path ≠ group.path)
    (whole : ∀ item ∈ messages, ∀ field ∈ item.namedFields, field.isIncluded = true) :
    Program.Regular { messages, oneofs } := by
  refine ⟨words, fun site type own => ?_, apart, whole⟩
  obtain ⟨name, known, means⟩ := own.byName site
  have none : ∀ items : List Item, (∀ item ∈ items, item ∈ messages ++ oneofs) →
      items.find? (fun item => item.path == name) = none := fun items among =>
    List.find?_eq_none.mpr fun item member same =>
      standard item (among item member) (beq_iff_eq.mp same ▸ known)
  simp only [message?, oneof?, means]
  exact ⟨none messages fun _ => List.mem_append_left _, none oneofs fun _ =>
    List.mem_append_right _⟩

variable (regular : program.Regular)

include regular

/-- A type with arguments under a standard name means no declaration. -/
theorem unmeant_of_standard {name : String} {place : Nat} {argument : TypeExpr}
    (found : type.typeArgument? name place = some argument) (known : name ∈ standardNames) :
    program.message? site type = none ∧ program.oneof? site type = none :=
  regular.standard site type ⟨name, known, place, Option.isSome_iff_exists.mpr ⟨argument, found⟩⟩

/-- The type of a message stands for itself, whatever wrappers are taken off. -/
theorem shape_of_message? {item : Item} (meant : program.message? site type = some item) :
    type.unwrapped = type ∧ type.shape = ⟨.singular, type⟩ :=
  TypeExpr.shape_of_not_standard fun standard =>
    nomatch meant.symm.trans (regular.standard site type standard).1

/-- So does the type of a group. -/
theorem shape_of_oneof? {item : Item} (meant : program.oneof? site type = some item) :
    type.unwrapped = type ∧ type.shape = ⟨.singular, type⟩ :=
  TypeExpr.shape_of_not_standard fun standard =>
    nomatch meant.symm.trans (regular.standard site type standard).2

/-- No type means a message type and a group. -/
theorem unmeant_of_meant {item group : Item} (message : program.message? site type = some item) :
    program.oneof? site type ≠ some group := by
  intro other
  obtain ⟨path, means, found⟩ := Option.bind_eq_some_iff.mp message
  obtain ⟨again, same, listed⟩ := Option.bind_eq_some_iff.mp other
  obtain rfl := Option.some.inj (means.symm.trans same)
  have own : item.path = path := by simpa using List.find?_some found
  have also : group.path = path := by simpa using List.find?_some listed
  exact regular.apart item (List.mem_of_find?_eq_some found) group
    (List.mem_of_find?_eq_some listed) (own.trans also.symm)

end Program.Regular

end Redaction.Derivation

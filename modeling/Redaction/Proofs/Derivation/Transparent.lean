import Mathlib.Logic.Relation
import Redaction.Proofs.Derivation.Typed

/-!
# Wrappers do not matter

Optional values and boxes may stand around a type any number of times, in any order and under any
path. They change nothing of what is derived from a field, and neither do those around the items of
a list or the values of a map. How many values a field has depends on what is left when all wrappers
are gone: a list has several values unless its items are bytes, a map has several, and anything else
is a single value.
-/

namespace Redaction.Derivation

open Relation (ReflTransGen)

namespace TypeExpr

/-- A type is written with the name given, behind any path, and has these types among its
arguments. -/
def WrittenAs (type : TypeExpr) (name : String) (types : List TypeExpr) : Prop :=
  ∃ absolute front arguments, type = .path absolute (front ++ [.generic name arguments]) ∧
    arguments.filterMap Argument.type? = types

/-- A type is an optional value or a box, and this is what stands inside. Several wrappers are a
path along this relation. -/
def Wraps (outer inner : TypeExpr) : Prop :=
  ∃ name ∈ ["Option", "Box"], ∃ rest, outer.WrittenAs name (inner :: rest)

/-- A type is that of a list of anything but bytes. -/
def IsList (type : TypeExpr) : Prop :=
  ∃ item rest, type.WrittenAs "Vec" (item :: rest) ∧ item ≠ named "u8"

/-- A type is that of a map, with at least two types among its arguments. -/
def IsMap (type : TypeExpr) : Prop :=
  ∃ name ∈ ["HashMap", "BTreeMap"], ∃ key value rest, type.WrittenAs name (key :: value :: rest)

/-- A field carries values of a type, with any wrappers around the field and around the values. -/
inductive Carries (element : TypeExpr) : TypeExpr → Schema.Cardinality → Prop where
  /-- One value. -/
  | single {field : TypeExpr} (stack : ReflTransGen Wraps field element) :
      Carries element field .singular
  /-- The items of a list. -/
  | list {field list item : TypeExpr} {rest : List TypeExpr} (stack : ReflTransGen Wraps field list)
      (written : list.WrittenAs "Vec" (item :: rest)) (inside : ReflTransGen Wraps item element) :
      Carries element field .repeated
  /-- The values of a map. -/
  | map {field map key value : TypeExpr} {rest : List TypeExpr} {name : String}
      (stack : ReflTransGen Wraps field map) (known : name ∈ ["HashMap", "BTreeMap"])
      (written : map.WrittenAs name (key :: value :: rest))
      (inside : ReflTransGen Wraps value element) : Carries element field .map

variable {type argument : TypeExpr} {name : String} {place : Nat}

/-- The type arguments that are looked up are those that are written. -/
theorem typeArgument?_eq_some_iff :
    type.typeArgument? name place = some argument ↔
      ∃ types, type.WrittenAs name types ∧ types[place]? = some argument := by
  constructor
  · intro found
    unfold typeArgument? at found
    split at found
    · next last arguments segment =>
      split at found
      · next same =>
        subst same
        cases type with
        | path absolute segments =>
          obtain ⟨front, rfl⟩ := List.getLast?_eq_some_iff.mp segment
          exact ⟨_, ⟨absolute, front, arguments, rfl, rfl⟩, found⟩
        | _ => cases segment
      · cases found
    · cases found
  · rintro ⟨types, ⟨absolute, front, arguments, rfl, rfl⟩, found⟩
    simp only [typeArgument?, lastSegment?, List.getLast?_concat, if_pos, found]

/-- The first type argument is the first type that is written. -/
theorem typeArgument?_zero_iff :
    type.typeArgument? name 0 = some argument ↔ ∃ rest, type.WrittenAs name (argument :: rest) := by
  rw [typeArgument?_eq_some_iff]
  constructor
  · rintro ⟨_ | ⟨first, rest⟩, written, found⟩
    · cases found
    · exact ⟨rest, Option.some.inj found ▸ written⟩
  · rintro ⟨rest, written⟩
    exact ⟨argument :: rest, written, rfl⟩

/-- The second type argument has another one before it. -/
theorem typeArgument?_one_iff :
    type.typeArgument? name 1 = some argument ↔
      ∃ first rest, type.WrittenAs name (first :: argument :: rest) := by
  rw [typeArgument?_eq_some_iff]
  constructor
  · rintro ⟨_ | ⟨first, _ | ⟨second, rest⟩⟩, written, found⟩
    · cases found
    · cases found
    · exact ⟨first, rest, Option.some.inj found ▸ written⟩
  · rintro ⟨first, rest, written⟩
    exact ⟨first :: argument :: rest, written, rfl⟩

/-- Of two names that are looked for, the type is written with one. -/
theorem or_typeArgument?_eq_some_iff {other : String} (different : name ≠ other) :
    (type.typeArgument? name place).or (type.typeArgument? other place) = some argument ↔
      ∃ found ∈ [name, other], type.typeArgument? found place = some argument := by
  rw [Option.or_eq_some_iff]
  constructor
  · rintro (first | ⟨_, second⟩)
    · exact ⟨name, List.mem_cons_self, first⟩
    · exact ⟨other, List.mem_cons_of_mem _ List.mem_cons_self, second⟩
  · rintro ⟨found, listed, here⟩
    rcases List.mem_pair.mp listed with rfl | rfl
    · exact .inl here
    · exact .inr ⟨typeArgument?_of_ne here different.symm place, here⟩

/-- What is found inside a wrapper is what the type wraps. -/
theorem wrapped?_eq_some_iff {inner : TypeExpr} :
    type.wrapped? = some inner ↔ type.Wraps inner := by
  rw [wrapped?, or_typeArgument?_eq_some_iff (by decide)]
  simp only [typeArgument?_zero_iff, Wraps]

/-- Where no wrapper is found, there is none. -/
theorem wrapped?_eq_none_iff : type.wrapped? = none ↔ ∀ inner, ¬ type.Wraps inner := by
  rw [Option.eq_none_iff_forall_ne_some]
  exact forall_congr' fun inner => not_congr wrapped?_eq_some_iff

/-- Only the bare name is that of bytes. -/
theorem isByte_iff : type.isByte = true ↔ type = named "u8" := by
  constructor
  · intro byte
    unfold isByte at byte
    split at byte
    · rw [eq_of_beq byte, named]
    · cases byte
  · rintro rfl
    rfl

/-- A list of bytes is written with the bare name of bytes as its first type. -/
theorem isBytes_iff : type.isBytes = true ↔ ∃ rest, type.WrittenAs "Vec" (named "u8" :: rest) := by
  rw [isBytes, Option.any_eq_true]
  constructor
  · rintro ⟨item, found, byte⟩
    exact typeArgument?_zero_iff.mp (isByte_iff.mp byte ▸ found)
  · rintro written
    exact ⟨named "u8", typeArgument?_zero_iff.mpr written, rfl⟩

/-- The items of a list are what it is written with, but bytes are no items. -/
theorem listItem?_eq_some_iff {item : TypeExpr} :
    type.listItem? = some item ↔
      item ≠ named "u8" ∧ ∃ rest, type.WrittenAs "Vec" (item :: rest) := by
  rw [listItem?, ← typeArgument?_zero_iff]
  constructor
  · intro found
    split at found
    · cases found
    · next several =>
      refine ⟨?_, found⟩
      rintro rfl
      exact several (isBytes_iff.mpr (typeArgument?_zero_iff.mp found))
  · rintro ⟨several, found⟩
    have noBytes : ¬ type.isBytes = true := by
      rw [isBytes, found, Option.any_some, isByte_iff]
      exact several
    rw [if_neg noBytes, found]

/-- The values of a map are the second type that it is written with. -/
theorem mapValue?_eq_some_iff {value : TypeExpr} :
    type.mapValue? = some value ↔
      ∃ name ∈ ["HashMap", "BTreeMap"], ∃ key rest, type.WrittenAs name (key :: value :: rest) := by
  rw [mapValue?, or_typeArgument?_eq_some_iff (by decide)]
  simp only [typeArgument?_one_iff]

/-- What is left without wrappers is no wrapper. -/
theorem wrapped?_unwrapped (type : TypeExpr) : type.unwrapped.wrapped? = none := by
  induction type using unwrapped.induct with
  | case1 type inner wraps ih => rwa [unwrapped_of_wrapped? wraps]
  | case2 type bare => rwa [unwrapped_of_bare bare]

/-- The wrappers of a type lead to what is left without them. -/
theorem wraps_unwrapped (type : TypeExpr) : ReflTransGen Wraps type type.unwrapped := by
  induction type using unwrapped.induct with
  | case1 type inner wraps ih =>
    rw [unwrapped_of_wrapped? wraps]
    exact .head (wrapped?_eq_some_iff.mp wraps) ih
  | case2 type bare => rw [unwrapped_of_bare bare]

/-- Wrappers do not matter for what is left without them. -/
theorem unwrapped_eq_of_wraps {outer : TypeExpr} (stack : ReflTransGen Wraps outer type) :
    outer.unwrapped = type.unwrapped := by
  induction stack using ReflTransGen.head_induction_on with
  | refl => rfl
  | head wraps _ ih => rw [unwrapped_of_wrapped? (wrapped?_eq_some_iff.mpr wraps), ih]

/-- Taking off wrappers one by one, one always comes to what is left without them. -/
theorem eq_unwrapped_iff {last : TypeExpr} :
    last = type.unwrapped ↔
      ReflTransGen Wraps type last ∧ ∀ inner, ¬ last.Wraps inner := by
  constructor
  · rintro rfl
    exact ⟨wraps_unwrapped type, wrapped?_eq_none_iff.mp (wrapped?_unwrapped type)⟩
  · rintro ⟨stack, bare⟩
    rw [unwrapped_eq_of_wraps stack, unwrapped_of_bare (wrapped?_eq_none_iff.mpr bare)]

/-- No type has wrappers without end. -/
theorem wellFounded_wraps : WellFounded fun inner outer : TypeExpr => outer.Wraps inner :=
  Subrelation.wf (fun wraps => sizeOf_wrapped?_lt (wrapped?_eq_some_iff.mpr wraps))
    (measure sizeOf).wf

/-- A type is written with one name and one list of types. -/
theorem WrittenAs.unique {types others : List TypeExpr} {other : String}
    (written : type.WrittenAs name types) (again : type.WrittenAs other others) :
    name = other ∧ types = others := by
  obtain ⟨absolute, front, arguments, rfl, rfl⟩ := written
  obtain ⟨_, before, twins, same, rfl⟩ := again
  obtain ⟨-, segments⟩ := path.inj same
  obtain ⟨rfl, rfl⟩ := Segment.generic.inj
    (List.singleton_inj.mp (List.append_inj_right' segments rfl))
  exact ⟨rfl, rfl⟩

/-- How many values a field has and of which type, read off the type that is left without
wrappers. -/
inductive Shaped (inner : TypeExpr) : FieldShape → Prop where
  /-- Several in a list, whose items are anything but bytes. -/
  | list {item : TypeExpr} {rest : List TypeExpr} (written : inner.WrittenAs "Vec" (item :: rest))
      (several : item ≠ named "u8") : Shaped inner ⟨.repeated, item.unwrapped⟩
  /-- Several in a map. -/
  | map {name : String} {key value : TypeExpr} {rest : List TypeExpr}
      (known : name ∈ ["HashMap", "BTreeMap"])
      (written : inner.WrittenAs name (key :: value :: rest)) :
      Shaped inner ⟨.map, value.unwrapped⟩
  /-- One, where the type is neither. -/
  | single (noList : ¬ inner.IsList) (noMap : ¬ inner.IsMap) : Shaped inner ⟨.singular, inner⟩

/-- The shape of a field is read off what is left without wrappers. -/
theorem shaped (type : TypeExpr) : type.unwrapped.Shaped type.shape := by
  rw [shape]
  split
  · next item list =>
    obtain ⟨several, rest, written⟩ := listItem?_eq_some_iff.mp list
    exact .list written several
  · next value noList map =>
    obtain ⟨name, known, key, rest, written⟩ := mapValue?_eq_some_iff.mp map
    exact .map known written
  · next noList noMap =>
    refine .single ?_ ?_
    · rintro ⟨item, rest, written, several⟩
      cases noList.symm.trans (listItem?_eq_some_iff.mpr ⟨several, rest, written⟩)
    · rintro ⟨name, known, key, value, rest, written⟩
      cases noMap.symm.trans (mapValue?_eq_some_iff.mpr ⟨name, known, key, rest, written⟩)

/-- A list is no map. -/
theorem IsList.not_isMap (list : type.IsList) : ¬ type.IsMap := by
  obtain ⟨item, rest, written, _⟩ := list
  rintro ⟨name, known, key, value, others, again⟩
  rw [(again.unique written).1] at known
  exact absurd known (by decide)

namespace Shaped

variable {inner : TypeExpr} {shape : FieldShape} (shaped : inner.Shaped shape)

include shaped

/-- A list of anything but bytes has several values, and nothing else has several in this way. -/
theorem repeated_iff : shape.cardinality = .repeated ↔ inner.IsList := by
  cases shaped with
  | list written several => exact iff_of_true rfl ⟨_, _, written, several⟩
  | map known written =>
    exact iff_of_false nofun fun list => list.not_isMap ⟨_, known, _, _, _, written⟩
  | single noList _ => exact iff_of_false nofun noList

/-- A map has several values, and nothing else has several in this way. -/
theorem map_iff : shape.cardinality = .map ↔ inner.IsMap := by
  cases shaped with
  | list written several => exact iff_of_false nofun (IsList.not_isMap ⟨_, _, written, several⟩)
  | map known written => exact iff_of_true rfl ⟨_, known, _, _, _, written⟩
  | single _ noMap => exact iff_of_false nofun noMap

/-- Everything else is a single value. -/
theorem singular_iff : shape.cardinality = .singular ↔ ¬ inner.IsList ∧ ¬ inner.IsMap := by
  cases shaped with
  | list written several => exact iff_of_false nofun fun none => none.1 ⟨_, _, written, several⟩
  | map known written => exact iff_of_false nofun fun none => none.2 ⟨_, known, _, _, _, written⟩
  | single noList noMap => exact iff_of_true rfl ⟨noList, noMap⟩

/-- The type of a single value is no wrapper. -/
theorem bare (bare : inner.wrapped? = none) : shape.element.wrapped? = none := by
  cases shaped with
  | list _ _ => exact wrapped?_unwrapped _
  | map _ _ => exact wrapped?_unwrapped _
  | single _ _ => exact bare

end Shaped

/-- The type of a single value of a field is no wrapper. -/
theorem not_wraps_element (type inner : TypeExpr) : ¬ type.shape.element.Wraps inner :=
  wrapped?_eq_none_iff.mp ((shaped type).bare (wrapped?_unwrapped type)) inner

/-- Wrappers do not matter for the shape of a field. -/
theorem shape_eq_of_wraps {outer : TypeExpr} (stack : ReflTransGen Wraps outer type) :
    outer.shape = type.shape := by
  rw [shape, shape, unwrapped_eq_of_wraps stack]

/-- A list of anything but bytes, with wrappers around it, has values of the type of its items. -/
theorem shape_list {field list item : TypeExpr} {rest : List TypeExpr}
    (stack : ReflTransGen Wraps field list) (written : list.WrittenAs "Vec" (item :: rest))
    (several : item ≠ named "u8") : field.shape = ⟨.repeated, item.unwrapped⟩ := by
  have vec := typeArgument?_zero_iff.mpr ⟨rest, written⟩
  have item := listItem?_eq_some_iff.mpr ⟨several, rest, written⟩
  rw [shape_eq_of_wraps stack, shape_of_list (bare_of_vec vec).1 item]

/-- A map, with wrappers around it, has values of the second type that it is written with. -/
theorem shape_map {field map key value : TypeExpr} {rest : List TypeExpr}
    (stack : ReflTransGen Wraps field map) (known : name ∈ ["HashMap", "BTreeMap"])
    (written : map.WrittenAs name (key :: value :: rest)) :
    field.shape = ⟨.map, value.unwrapped⟩ := by
  have values := mapValue?_eq_some_iff.mpr ⟨name, known, key, rest, written⟩
  obtain ⟨bare, noVec⟩ := bare_of_map values
  rw [shape_eq_of_wraps stack, shape_of_map bare (listItem?_of_vec_eq_none noVec) values]

section Bytes

variable {bytes : TypeExpr} {rest : List TypeExpr}
  (written : bytes.WrittenAs "Vec" (named "u8" :: rest))

include written

/-- A list of bytes is no wrapper. -/
theorem unwrapped_bytes : bytes.unwrapped = bytes :=
  unwrapped_of_bare (bare_of_vec (typeArgument?_zero_iff.mpr ⟨rest, written⟩)).1

/-- A list of bytes is a single value. -/
theorem isScalar_bytes : bytes.isScalar = true := by
  have isBytes := isBytes_iff.mpr ⟨rest, written⟩
  obtain ⟨absolute, front, arguments, rfl, _⟩ := written
  rw [isScalar, isBytes, Bool.true_or]

/-- A field of bytes, with wrappers around them, has one value. -/
theorem shape_bytes {field : TypeExpr} (stack : ReflTransGen Wraps field bytes) :
    field.shape = ⟨.singular, bytes⟩ := by
  have vec := typeArgument?_zero_iff.mpr ⟨rest, written⟩
  obtain ⟨bare, noMap⟩ := bare_of_vec vec
  have noList : bytes.listItem? = none := by
    rw [listItem?, if_pos (isBytes_iff.mpr ⟨rest, written⟩)]
  rw [shape_eq_of_wraps stack, shape_of_single bare noList noMap]

/-- A list of bytes in wrappers is not the type of bytes. -/
theorem ne_byte_of_wraps {item : TypeExpr} (inside : ReflTransGen Wraps item bytes) :
    item ≠ named "u8" := by
  rintro rfl
  have vec := typeArgument?_zero_iff.mpr ⟨rest, written⟩
  have same := unwrapped_eq_of_wraps inside
  rw [unwrapped_of_bare rfl, unwrapped_bytes written] at same
  rw [← same] at vec
  cases vec

end Bytes

end TypeExpr

open TypeExpr (Wraps)

variable {outer type : TypeExpr} {name : String} {options : FieldOptions}

/-- The messages of a described field are of the type of its single value. -/
theorem describeField_message {call : FieldCall} {element : TypeExpr}
    (described : describeField name type options = .ok call)
    (message : call.kind = .message element) : element = type.shape.element := by
  rw [describeField] at described
  obtain ⟨kind, chosen, described⟩ := bind_eq_ok_iff.mp described
  cases described
  exact element_of_elementKind (chosen.trans (congrArg _ message))

/-- The group of a field, if there is one, is of the type of the field's single value. -/
theorem describeOneof_eq_ok {group : String} {secret : Bool} {call : BuilderCall}
    {registration : Registration}
    (described : describeOneof group type secret = .ok (call, registration)) :
    call = .oneof group type.shape.element secret ∧
      registration = .alternatives type.shape.element := by
  unfold describeOneof at described
  dsimp only at described
  split at described
  · cases described
    exact ⟨rfl, rfl⟩
  · cases described
  · cases described

/-- A field whose kind is not chosen has single values if the type of one of them says so. -/
theorem describeField_of_isScalar (free : options.kind = none)
    {cardinality : Schema.Cardinality} {element : TypeExpr}
    (shaped : type.shape = ⟨cardinality, element⟩) (scalar : element.isScalar = true) :
    describeField name type options =
      .ok { name, kind := .scalar, cardinality, secret := options.secret } := by
  rw [describeField, shaped, free, elementKind, if_pos scalar]
  rfl

/-- Bytes that a field carries are single values if no other kind is chosen. -/
theorem describeField_bytes {bytes field : TypeExpr} {rest : List TypeExpr}
    {cardinality : Schema.Cardinality} (written : bytes.WrittenAs "Vec" (.named "u8" :: rest))
    (carries : bytes.Carries field cardinality) (free : options.kind = none) :
    describeField name field options =
      .ok { name, kind := .scalar, cardinality, secret := options.secret } := by
  have scalar := TypeExpr.isScalar_bytes written
  have bare := TypeExpr.unwrapped_bytes written
  cases carries with
  | single stack => exact describeField_of_isScalar free (TypeExpr.shape_bytes written stack) scalar
  | list stack listed inside =>
    have shaped := TypeExpr.shape_list stack listed (TypeExpr.ne_byte_of_wraps written inside)
    rw [TypeExpr.unwrapped_eq_of_wraps inside, bare] at shaped
    exact describeField_of_isScalar free shaped scalar
  | map stack known mapped inside =>
    have shaped := TypeExpr.shape_map stack known mapped
    rw [TypeExpr.unwrapped_eq_of_wraps inside, bare] at shaped
    exact describeField_of_isScalar free shaped scalar

/-- What is the same for a type in wrappers and for the type inside, and what decides it: what is
left of the type when all wrappers are gone. -/
structure Transparent (outer type : TypeExpr) : Prop where
  /-- A field of the type in wrappers has the shape of one without them. -/
  shape : outer.shape = type.shape
  /-- The same is derived from it, or it is refused for the same reason. -/
  field : ∀ name options, describeField name outer options = describeField name type options
  /-- So it is as a group. -/
  group : ∀ group secret, describeOneof group outer secret = describeOneof group type secret
  /-- The values of a field are of no wrapper type. -/
  bare_shape : ∀ inner, ¬ type.shape.element.Wraps inner
  /-- The messages that a description of a field refers to are of no wrapper type. -/
  bare_field : ∀ name options call element, describeField name type options = .ok call →
    call.kind = .message element → ∀ inner, ¬ element.Wraps inner
  /-- The alternatives that a description of a group refers to, and that are to be registered, are
  of no wrapper type. -/
  bare_group : ∀ group secret call registration,
    describeOneof group type secret = .ok (call, registration) →
    ∃ element, call = .oneof group element secret ∧ registration = .alternatives element ∧
      ∀ inner, ¬ element.Wraps inner
  /-- Taking off wrappers comes to an end. -/
  ends : WellFounded fun inner outer : TypeExpr => outer.Wraps inner
  /-- Whatever the order, what is left is the same. -/
  unwrapped_iff : ∀ last, last = type.unwrapped ↔
    ReflTransGen Wraps type last ∧ ∀ inner, ¬ last.Wraps inner
  /-- A field has several values in order exactly if a list is left. -/
  repeated_iff : type.shape.cardinality = .repeated ↔ type.unwrapped.IsList
  /-- It has several values under keys exactly if a map is left. -/
  map_iff : type.shape.cardinality = .map ↔ type.unwrapped.IsMap
  /-- It has one value exactly if neither is left. -/
  singular_iff : type.shape.cardinality = .singular ↔
    ¬ type.unwrapped.IsList ∧ ¬ type.unwrapped.IsMap
  /-- Bytes are single values wherever they stand, unless another kind is chosen. -/
  bytes : ∀ (bytes field : TypeExpr) (rest : List TypeExpr) (cardinality : Schema.Cardinality),
    bytes.WrittenAs "Vec" (.named "u8" :: rest) → bytes.Carries field cardinality →
    ∀ (name : String) (options : FieldOptions), options.kind = none →
      describeField name field options =
        .ok { name, kind := .scalar, cardinality, secret := options.secret }

/-- Wrappers around a type change nothing: neither its shape nor what is derived from a field of
this type, by itself or as a group, nor whether it is accepted. No type in what is derived is a
wrapper. Taking off wrappers comes to an end, and always to the same one, which decides how many
values the field has. Bytes are single values wherever they stand. -/
theorem wrappers_change_nothing (stack : ReflTransGen Wraps outer type) :
    Transparent outer type where
  shape := TypeExpr.shape_eq_of_wraps stack
  field name options := by rw [describeField, describeField, TypeExpr.shape_eq_of_wraps stack]
  group group secret := by rw [describeOneof, describeOneof, TypeExpr.shape_eq_of_wraps stack]
  bare_shape := type.not_wraps_element
  bare_field name options call element described message := by
    rw [describeField_message described message]
    exact type.not_wraps_element
  bare_group group secret call registration described := by
    obtain ⟨rfl, rfl⟩ := describeOneof_eq_ok described
    exact ⟨type.shape.element, rfl, rfl, type.not_wraps_element⟩
  ends := TypeExpr.wellFounded_wraps
  unwrapped_iff _ := TypeExpr.eq_unwrapped_iff
  repeated_iff := type.shaped.repeated_iff
  map_iff := type.shaped.map_iff
  singular_iff := type.shaped.singular_iff
  bytes _ _ _ _ written carries _ _ free := describeField_bytes written carries free

/-- A list inside a box inside an optional value, whose items are bytes inside an optional value. -/
theorem optional_list_of_bytes :
    let list := TypeExpr.applied "Vec" [.applied "Option" [.applied "Vec" [.named "u8"]]]
    let field := TypeExpr.path true
      [.plain "std", .plain "option", .generic "Option" [.type (.applied "Box" [list])]]
    ReflTransGen Wraps field list
      ∧ describeField "chunks" field {} = describeField "chunks" list {}
      ∧ list.shape.cardinality = .repeated
      ∧ describeField "chunks" field {} =
          .ok { name := "chunks", kind := .scalar, cardinality := .repeated, secret := false } := by
  intro list field
  have optional : field.Wraps (.applied "Box" [list]) :=
    ⟨"Option", by decide, [], true, [.plain "std", .plain "option"], _, rfl, rfl⟩
  have boxed : (TypeExpr.applied "Box" [list]).Wraps list :=
    ⟨"Box", by decide, [], false, [], _, rfl, rfl⟩
  have stack : ReflTransGen Wraps field list := .head optional (.single boxed)
  have item : (TypeExpr.applied "Option" [.applied "Vec" [.named "u8"]]).Wraps
      (.applied "Vec" [.named "u8"]) := ⟨"Option", by decide, [], false, [], _, rfl, rfl⟩
  have written : list.WrittenAs "Vec" [.applied "Option" [.applied "Vec" [.named "u8"]]] :=
    ⟨false, [], _, rfl, rfl⟩
  have transparent := wrappers_change_nothing stack
  have bare : list = list.unwrapped :=
    (transparent.unwrapped_iff list).mpr ⟨.refl, TypeExpr.wrapped?_eq_none_iff.mp rfl⟩
  refine ⟨stack, transparent.field _ _, transparent.repeated_iff.mpr ?_, ?_⟩
  · rw [← bare]
    exact ⟨_, [], written, nofun⟩
  · exact transparent.bytes (.applied "Vec" [.named "u8"]) field [] _ ⟨false, [], _, rfl, rfl⟩
      (.list stack written (.single item)) _ _ rfl

end Redaction.Derivation

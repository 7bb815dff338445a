import Redaction.Proofs.Derivation.Transparent

/-!
# Paths in front of names

A name in a type may stand behind a path. Two spellings of a type that differ at most in such paths,
at any depth, are both wrappers, both maps or both written as lists, and what stands inside them are
spellings of one type again. There is one place where the path matters: the items of a list are
bytes only if they are written with the bare name. So a field has as many values in both spellings,
and single values alike, exactly if both carry bytes in the same places.
-/

namespace Redaction.Derivation

open Relation (ReflTransGen)

mutual

/-- Two spellings of one type, which differ at most in the paths in front of names. What nothing
looks into may be written in any way. -/
inductive TypeExpr.Requalified : TypeExpr → TypeExpr → Prop where
  /-- A path: its last parts correspond, and anything may stand in front of them. -/
  | path (absolute again : Bool) (front before : List Segment) {last own : Segment}
      (same : Segment.Requalified last own) :
      TypeExpr.Requalified (.path absolute (front ++ [last])) (.path again (before ++ [own]))
  /-- A type that belongs to another one. -/
  | associated {owner twin : TypeExpr} (front before : List Segment) {last own : Segment}
      (owners : TypeExpr.Requalified owner twin) (same : Segment.Requalified last own) :
      TypeExpr.Requalified (.associated owner (front ++ [last]))
        (.associated twin (before ++ [own]))
  /-- A reference. -/
  | reference (lifetime : Option String) (changeable : Bool) {target twin : TypeExpr}
      (targets : TypeExpr.Requalified target twin) :
      TypeExpr.Requalified (.reference lifetime target changeable)
        (.reference lifetime twin changeable)
  /-- A tuple. -/
  | tuple {items twins : List TypeExpr} (each : List.Forall₂ TypeExpr.Requalified items twins) :
      TypeExpr.Requalified (.tuple items) (.tuple twins)
  /-- A list of fixed length. -/
  | array {element twin : TypeExpr} (length again : String)
      (elements : TypeExpr.Requalified element twin) :
      TypeExpr.Requalified (.array element length) (.array twin again)
  /-- A list of any length. -/
  | slice {element twin : TypeExpr} (elements : TypeExpr.Requalified element twin) :
      TypeExpr.Requalified (.slice element) (.slice twin)
  /-- A type of any other form. -/
  | other (written again : String) : TypeExpr.Requalified (.other written) (.other again)

/-- Two spellings of one part of a path. -/
inductive Segment.Requalified : Segment → Segment → Prop where
  /-- A mere name. -/
  | plain (name : String) : Segment.Requalified (.plain name) (.plain name)
  /-- A name with arguments between angle brackets. -/
  | generic (name : String) {arguments twins : List Argument}
      (each : List.Forall₂ Argument.Requalified arguments twins) :
      Segment.Requalified (.generic name arguments) (.generic name twins)
  /-- A name with the parameters of a function. -/
  | function (name written again : String) :
      Segment.Requalified (.function name written) (.function name again)

/-- Two spellings of one argument. -/
inductive Argument.Requalified : Argument → Argument → Prop where
  /-- A type. -/
  | type {value twin : TypeExpr} (values : TypeExpr.Requalified value twin) :
      Argument.Requalified (.type value) (.type twin)
  /-- A lifetime. -/
  | lifetime (name : String) : Argument.Requalified (.lifetime name) (.lifetime name)
  /-- A number, or the binding of a name. -/
  | constant (written again : String) : Argument.Requalified (.constant written) (.constant again)

end

/-- Two spellings of a part of a path have one name, and both have arguments or neither. -/
theorem Segment.Requalified.name_eq {segment twin : Segment} (same : segment.Requalified twin) :
    segment.name = twin.name ∧ segment.hasArguments = twin.hasArguments := by
  cases same with
  | plain | function => exact ⟨rfl, rfl⟩
  | generic name each =>
    refine ⟨rfl, ?_⟩
    cases each <;> rfl

/-- Items at one place in two lists that correspond are related. -/
theorem rel_getElem? {α β : Type} {related : α → β → Prop} {list : List α} {twins : List β}
    (each : List.Forall₂ related list twins) (place : Nat) :
    Option.Rel related list[place]? twins[place]? := by
  induction each generalizing place with
  | nil => exact .none
  | cons here _ ih =>
    cases place with
    | zero => exact .some here
    | succ place => exact ih place

/-- Where two options are related, and two others to fall back on are too, so are the results. -/
theorem rel_or {α β : Type} {related : α → β → Prop} {first second : Option α}
    {twin other : Option β} (before : Option.Rel related first twin)
    (after : Option.Rel related second other) :
    Option.Rel related (first.or second) (twin.or other) := by
  cases before with
  | some same => exact .some same
  | none => exact after

/-- Where two options are related, both are empty or neither is. -/
theorem eq_none_of_rel {α β : Type} {related : α → β → Prop} {found : Option α} {twin : Option β}
    (both : Option.Rel related found twin) (empty : found = none) : twin = none := by
  subst empty
  cases both
  rfl

/-- Two spellings of an argument are types with two spellings, or neither is a type. -/
theorem Argument.Requalified.rel_type? {argument twin : Argument}
    (same : argument.Requalified twin) :
    Option.Rel TypeExpr.Requalified argument.type? twin.type? := by
  cases same with
  | type values => exact .some values
  | lifetime | constant => exact .none

namespace TypeExpr

variable {type twin : TypeExpr}

namespace Requalified

variable (alike : type.Requalified twin)

include alike

/-- Both spellings have an argument under a name and place, or neither has. -/
theorem rel_typeArgument? (name : String) (place : Nat) :
    Option.Rel Requalified (type.typeArgument? name place) (twin.typeArgument? name place) := by
  cases alike with
  | path absolute again front before same =>
    simp only [typeArgument?, lastSegment?, List.getLast?_concat]
    cases same with
    | plain | function => exact .none
    | generic found each =>
      by_cases named : found = name
      · simp only [if_pos named]
        refine rel_getElem? (List.rel_filterMap ?_ each) place
        exact fun _ _ => Argument.Requalified.rel_type?
      · simp only [if_neg named]
        exact .none
  | _ => exact .none

/-- Both spellings are wrappers around one type, or neither is. -/
theorem rel_wrapped? : Option.Rel Requalified type.wrapped? twin.wrapped? :=
  rel_or (alike.rel_typeArgument? "Option" 0) (alike.rel_typeArgument? "Box" 0)

/-- Both spellings are maps with values of one type, or neither is. -/
theorem rel_mapValue? : Option.Rel Requalified type.mapValue? twin.mapValue? :=
  rel_or (alike.rel_typeArgument? "HashMap" 1) (alike.rel_typeArgument? "BTreeMap" 1)

/-- Both spellings are lists with items of one type or neither is, where both are bytes or neither
is. -/
theorem rel_listItem? (bytes : type.isBytes = twin.isBytes) :
    Option.Rel Requalified type.listItem? twin.listItem? := by
  rw [listItem?, listItem?, bytes]
  split
  · exact .none
  · exact alike.rel_typeArgument? "Vec" 0

/-- Without their wrappers two spellings are still spellings of one type. -/
theorem unwrapped : type.unwrapped.Requalified twin.unwrapped := by
  induction type using unwrapped.induct generalizing twin with
  | case1 type inner wraps ih =>
    obtain ⟨own, found, inside⟩ := Schema.exists_of_rel_some alike.rel_wrapped? wraps
    rw [unwrapped_of_wrapped? wraps, unwrapped_of_wrapped? found]
    exact ih inside
  | case2 type bare =>
    rwa [unwrapped_of_bare bare, unwrapped_of_bare (eq_none_of_rel alike.rel_wrapped? bare)]

end Requalified

/-- A type whose values are bytes: a list with the bare name of bytes as its first type argument,
perhaps behind references. -/
inductive OfBytes : TypeExpr → Prop where
  /-- A list of bytes. -/
  | list {type : TypeExpr} {rest : List TypeExpr}
      (written : type.WrittenAs "Vec" (named "u8" :: rest)) : OfBytes type
  /-- A reference to bytes. -/
  | reference {lifetime : Option String} {target : TypeExpr} {changeable : Bool}
      (inside : OfBytes target) : OfBytes (.reference lifetime target changeable)

/-- A field carries bytes, so many at a time. -/
def CarriesBytes (field : TypeExpr) (cardinality : Schema.Cardinality) : Prop :=
  ∃ element, Carries element field cardinality ∧ element.OfBytes

/-- Two types carry bytes alike. -/
def SameBytes (type twin : TypeExpr) : Prop :=
  ∀ cardinality, type.CarriesBytes cardinality ↔ twin.CarriesBytes cardinality

/-- A field carries the values of its shape. -/
theorem carries_shape (type : TypeExpr) :
    Carries type.shape.element type type.shape.cardinality := by
  have stack := wraps_unwrapped type
  obtain ⟨shape, same⟩ : ∃ shape, type.shape = shape := ⟨_, rfl⟩
  have shaped := same ▸ type.shaped
  rw [same]
  cases shaped with
  | list written _ => exact .list stack written (wraps_unwrapped _)
  | map known written => exact .map stack known written (wraps_unwrapped _)
  | single _ _ => exact .single stack

namespace OfBytes

variable (bytes : type.OfBytes)

include bytes

/-- Bytes are a single value without wrappers. -/
theorem shape_eq : type.unwrapped = type ∧ type.shape = ⟨.singular, type⟩ := by
  cases bytes with
  | list written => exact ⟨unwrapped_bytes written, shape_bytes written .refl⟩
  | reference => exact ⟨unwrapped_of_bare rfl, shape_of_single rfl rfl rfl⟩

/-- A single byte is no bytes. -/
theorem ne_byte : type ≠ named "u8" := by
  intro same
  cases bytes with
  | list written =>
    have vec := typeArgument?_zero_iff.mpr ⟨_, written⟩
    rw [same] at vec
    cases vec
  | reference => cases same

/-- Bytes in wrappers are what is left without these, and no single byte. -/
theorem of_wraps {outer : TypeExpr} (stack : ReflTransGen Wraps outer type) :
    outer.unwrapped = type ∧ outer ≠ named "u8" := by
  have last : outer.unwrapped = type := (unwrapped_eq_of_wraps stack).trans bytes.shape_eq.1
  refine ⟨last, ?_⟩
  rintro rfl
  rw [unwrapped_of_bare rfl] at last
  exact bytes.ne_byte last.symm

end OfBytes

/-- A field carries bytes exactly if the values of its shape are bytes. -/
theorem carriesBytes_iff {field : TypeExpr} {cardinality : Schema.Cardinality} :
    field.CarriesBytes cardinality ↔
      field.shape.cardinality = cardinality ∧ field.shape.element.OfBytes := by
  constructor
  · rintro ⟨element, carries, bytes⟩
    cases carries with
    | single stack =>
      rw [shape_eq_of_wraps stack, bytes.shape_eq.2]
      exact ⟨rfl, bytes⟩
    | list stack written inside =>
      obtain ⟨last, several⟩ := bytes.of_wraps inside
      rw [shape_list stack written several, last]
      exact ⟨rfl, bytes⟩
    | map stack known written inside =>
      rw [shape_map stack known written, (bytes.of_wraps inside).1]
      exact ⟨rfl, bytes⟩
  · rintro ⟨rfl, bytes⟩
    exact ⟨_, field.carries_shape, bytes⟩

/-- A path is bytes if it is a list of them. -/
theorem ofBytes_path_iff {absolute : Bool} {segments : List Segment} :
    (path absolute segments).OfBytes ↔ (path absolute segments).isBytes = true := by
  rw [isBytes_iff]
  constructor
  · intro bytes
    cases bytes with
    | list written => exact ⟨_, written⟩
  · rintro ⟨rest, written⟩
    exact .list written

/-- A reference is to bytes if its target is. -/
theorem ofBytes_reference_iff {lifetime : Option String} {target : TypeExpr} {changeable : Bool} :
    (reference lifetime target changeable).OfBytes ↔ target.OfBytes := by
  refine ⟨fun bytes => ?_, .reference⟩
  cases bytes with
  | list written => exact nomatch typeArgument?_zero_iff.mpr ⟨_, written⟩
  | reference inside => exact inside

/-- What is neither a list nor a reference is no bytes. -/
theorem not_ofBytes (noList : type.typeArgument? "Vec" 0 = none)
    (noReference : ∀ lifetime target changeable, type ≠ reference lifetime target changeable) :
    ¬ type.OfBytes := by
  intro bytes
  cases bytes with
  | list written => cases noList.symm.trans (typeArgument?_zero_iff.mpr ⟨_, written⟩)
  | reference => exact noReference _ _ _ rfl

/-- A path whose last part has no arguments is no list of bytes. -/
theorem isBytes_of_bare {last : Segment} (bare : last.hasArguments = false) (absolute : Bool)
    (front : List Segment) : (path absolute (front ++ [last])).isBytes = false := by
  refine Bool.eq_false_iff.mpr fun bytes => ?_
  obtain ⟨rest, _, before, arguments, same, types⟩ := isBytes_iff.mp bytes
  obtain rfl := List.singleton_inj.mp (List.append_inj_right' (path.inj same).2 rfl)
  cases arguments with
  | nil => cases types
  | cons first others => cases bare

/-- A list is a single value exactly if it is bytes. -/
theorem cardinality_eq_singular_iff {item : TypeExpr}
    (vec : type.unwrapped.typeArgument? "Vec" 0 = some item) :
    type.shape.cardinality = .singular ↔ type.unwrapped.isBytes = true := by
  have stack := wraps_unwrapped type
  obtain ⟨rest, written⟩ := typeArgument?_zero_iff.mp vec
  by_cases byte : item = named "u8"
  · subst byte
    rw [shape_bytes written stack]
    exact iff_of_true rfl (isBytes_iff.mpr ⟨rest, written⟩)
  · rw [shape_list stack written byte, isBytes, vec, Option.any_some, isByte_iff]
    exact iff_of_false (by simp) byte

/-- A list is bytes exactly if a field of its type carries bytes as a single value. -/
theorem isBytes_iff_carriesBytes {item : TypeExpr}
    (vec : type.unwrapped.typeArgument? "Vec" 0 = some item) :
    type.unwrapped.isBytes = true ↔ type.CarriesBytes .singular := by
  constructor
  · intro bytes
    obtain ⟨rest, written⟩ := isBytes_iff.mp bytes
    exact ⟨_, .single (wraps_unwrapped type), .list written⟩
  · intro carries
    exact (cardinality_eq_singular_iff vec).mp (carriesBytes_iff.mp carries).1

namespace Requalified

variable (alike : type.Requalified twin)

include alike

/-- Two spellings are scalars alike exactly if they are bytes alike. -/
theorem isScalar_eq_iff : type.isScalar = twin.isScalar ↔ (type.OfBytes ↔ twin.OfBytes) := by
  induction type using isScalar.induct generalizing twin with
  | case1 lifetime target changeable ih =>
    cases alike with
    | reference _ _ targets =>
      rw [isScalar, isScalar, ofBytes_reference_iff, ofBytes_reference_iff]
      exact ih targets
  | case2 absolute segments =>
    cases alike with
    | @path _ _ front before last own same =>
      obtain ⟨name, given⟩ := same.name_eq
      rw [isScalar, isScalar, List.getLast?_concat, List.getLast?_concat, ofBytes_path_iff,
        ofBytes_path_iff, ← Bool.eq_iff_iff]
      dsimp only
      rw [name, given]
      -- a part with arguments is no known name, and one without them is no list
      cases bare : own.hasArguments with
      | true => rw [Bool.not_true, Bool.false_and, Bool.or_false, Bool.or_false]
      | false =>
        rw [isBytes_of_bare (given.trans bare), isBytes_of_bare bare]
        exact iff_of_true rfl rfl
  | case3 type noReference noPath =>
    cases alike with
    | path => exact (noPath _ _ rfl).elim
    | reference => exact (noReference _ _ _ rfl).elim
    | associated | tuple | array | slice | other =>
      exact iff_of_true rfl (iff_of_false (not_ofBytes rfl (by simp)) (not_ofBytes rfl (by simp)))

/-- Where both spellings are lists of bytes or neither is, a field has as many values in both, of
types that are spellings of one. -/
theorem shape (bytes : type.unwrapped.isBytes = twin.unwrapped.isBytes) :
    type.shape.cardinality = twin.shape.cardinality ∧
      type.shape.element.Requalified twin.shape.element := by
  have inner := alike.unwrapped
  have list := inner.rel_listItem? bytes
  have map := inner.rel_mapValue?
  simp only [TypeExpr.shape]
  generalize type.unwrapped.listItem? = item, twin.unwrapped.listItem? = other at list ⊢
  generalize type.unwrapped.mapValue? = value, twin.unwrapped.mapValue? = found at map ⊢
  cases list with
  | some items => exact ⟨rfl, items.unwrapped⟩
  | none =>
    cases map with
    | some values => exact ⟨rfl, values.unwrapped⟩
    | none => exact ⟨rfl, inner⟩

/-- Both spellings are lists of bytes or neither is, if this holds where both are lists. -/
theorem isBytes_eq (lists : ∀ item other, type.unwrapped.typeArgument? "Vec" 0 = some item →
      twin.unwrapped.typeArgument? "Vec" 0 = some other →
      (type.unwrapped.isBytes = true ↔ twin.unwrapped.isBytes = true)) :
    type.unwrapped.isBytes = twin.unwrapped.isBytes := by
  have both := alike.unwrapped.rel_typeArgument? "Vec" 0
  cases vec : type.unwrapped.typeArgument? "Vec" 0 with
  | none => rw [isBytes, isBytes, vec, eq_none_of_rel both vec]
  | some item =>
    obtain ⟨other, found, _⟩ := Schema.exists_of_rel_some both vec
    exact Bool.eq_iff_iff.mpr (lists item other vec found)

/-- Where a field has as many values in both spellings, these are of types that are spellings of
one. -/
theorem elements (same : type.shape.cardinality = twin.shape.cardinality) :
    type.shape.element.Requalified twin.shape.element := by
  refine (alike.shape (alike.isBytes_eq fun _ _ vec found => ?_)).2
  rw [← cardinality_eq_singular_iff vec, ← cardinality_eq_singular_iff found, same]

/-- Two spellings carry bytes alike exactly if a field has as many values in both, which are scalars
in both or in neither. -/
theorem sameBytes_iff :
    type.SameBytes twin ↔ type.shape.cardinality = twin.shape.cardinality ∧
      type.shape.element.isScalar = twin.shape.element.isScalar := by
  constructor
  · intro carry
    have bytes := alike.isBytes_eq fun _ _ vec found =>
      (isBytes_iff_carriesBytes vec).trans
        ((carry .singular).trans (isBytes_iff_carriesBytes found).symm)
    obtain ⟨same, elements⟩ := alike.shape bytes
    have values := carry type.shape.cardinality
    rw [carriesBytes_iff, carriesBytes_iff, ← same, and_iff_right rfl, and_iff_right rfl] at values
    exact ⟨same, elements.isScalar_eq_iff.mpr values⟩
  · rintro ⟨same, scalar⟩ cardinality
    rw [carriesBytes_iff, carriesBytes_iff, same, (alike.elements same).isScalar_eq_iff.mp scalar]

end Requalified

end TypeExpr

end Redaction.Derivation

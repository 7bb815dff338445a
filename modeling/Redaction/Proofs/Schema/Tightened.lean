import Mathlib.Data.List.Forall2
import Redaction.Proofs.Schema.Place
import Redaction.Proofs.Schema.Reachable

/-!
# Schemas with more secrets

A schema is tightened if its types keep their fields and groups, and every field that was secret
under the old rules is secret under the new ones. Then each place keeps its meaning or becomes
secret. A type that leads to nothing secret under the new rules did not do so under the old ones.
-/

namespace Redaction

/-- A policy with more names, and with an end of its suffix as the new suffix, matches more. -/
theorem Policy.matchesName_of_wider {policy stricter : Policy}
    (names : ∀ name ∈ policy.additional.names, name ∈ stricter.additional.names)
    (suffix : ∀ old ∈ policy.suffix, ∃ new ∈ stricter.suffix, endsIn old new = true)
    {name : String} (matched : policy.matchesName name = true) :
    stricter.matchesName name = true := by
  rw [matchesName, Bool.or_eq_true, Option.any_eq_true] at matched ⊢
  rcases matched with listed | ⟨old, known, ends⟩
  · left
    have present : Text.lowerCase name ∈ policy.additional.names :=
      List.contains_iff_mem.mp (Bool.and_eq_true_iff.mp listed).2
    have still := names _ present
    rw [AdditionalNames.contains, List.contains_iff_mem.mpr still, Bool.and_true,
      Bool.not_eq_true', List.isEmpty_eq_false_iff]
    exact List.ne_nil_of_mem still
  · right
    obtain ⟨new, chosen, shorter⟩ := suffix old known
    refine ⟨new, chosen, ?_⟩
    rw [endsIn, List.isSuffixOf_iff_suffix] at shorter ends ⊢
    exact shorter.trans ends

namespace Schema

open Relation

variable {policy stricter : Policy}

/-- Whether two fields differ at most in their marks, and the second is secret if the first is. -/
structure Field.Tightened (policy stricter : Policy) (field other : Field) : Prop where
  /-- The names are the same. -/
  name : field.name = other.name
  /-- The kinds are the same. -/
  kind : field.kind = other.kind
  /-- The cardinalities are the same. -/
  cardinality : field.cardinality = other.cardinality
  /-- The groups are the same. -/
  group : field.group = other.group
  /-- A secret field stays secret. -/
  secret : policy.isSensitive field = true → stricter.isSensitive other = true

/-- Whether two types have the same name, the same groups and tightened fields in the same order. -/
structure Message.Tightened (policy stricter : Policy) (message other : Message) : Prop where
  /-- The names are the same. -/
  name : message.name = other.name
  /-- The groups are the same. -/
  groups : message.groups = other.groups
  /-- The fields are tightened one by one. -/
  fields : List.Forall₂ (Field.Tightened policy stricter) message.fields other.fields

/-- Whether two registries hold the same types one after the other, tightened. -/
def Registry.Tightened (policy stricter : Policy) (registry other : Registry) : Prop :=
  List.Forall₂ (Message.Tightened policy stricter) registry.messages other.messages

/-- Whether a place has the same meaning under a tightened schema, or is secret there. -/
inductive Place.Tightened (policy stricter : Policy) : Place → Place → Prop where
  /-- The value has become secret, or was so before. -/
  | secret (place : Place) : Tightened policy stricter place .secret
  /-- The value holds no messages. -/
  | free : Tightened policy stricter .free .free
  /-- The type is missing. -/
  | missing (typeName : String) : Tightened policy stricter (.missing typeName) (.missing typeName)
  /-- The key, or the alternative, is not declared. -/
  | unknown : Tightened policy stricter .unknown .unknown
  /-- The value is a message of a tightened type. -/
  | message {type other : Message} (tightened : type.Tightened policy stricter other) :
    Tightened policy stricter (.message type) (.message other)
  /-- The value is a list of messages of a tightened type. -/
  | list {type other : Message} (tightened : type.Tightened policy stricter other) :
    Tightened policy stricter (.list type) (.list other)
  /-- The value is an object with messages of a tightened type. -/
  | map {type other : Message} (tightened : type.Tightened policy stricter other) :
    Tightened policy stricter (.map type) (.map other)
  /-- The value has an alternative of a group of a tightened type. -/
  | group {type other : Message} (tightened : type.Tightened policy stricter other)
    (group : String) : Tightened policy stricter (.group type group) (.group other group)

/-- The items of a list keep their meaning. -/
theorem Place.Tightened.item {place counterpart : Place}
    (same : place.Tightened policy stricter counterpart) (visible : counterpart ≠ .secret) :
    Place.Tightened policy stricter place.item counterpart.item := by
  cases same with
  | secret => exact absurd rfl visible
  | list nested => exact .message nested
  | _ => exact .free

/-- The place needs the same form as before for what is inside to be described. -/
theorem Place.Tightened.accepts {place counterpart : Place}
    (same : place.Tightened policy stricter counterpart) (visible : counterpart ≠ .secret)
    (tree : Tree) : place.accepts tree = counterpart.accepts tree := by
  cases same with
  | secret => exact absurd rfl visible
  | group => rcases tree with _ | _ | _ | _ | _ | (_ | ⟨_, _ | _⟩) | _ <;> rfl
  | message | list | map => cases tree <;> rfl
  | _ => rfl

/-- A tightened field refers to the same type. -/
theorem Field.Tightened.typeName? {field other : Field}
    (tightened : Field.Tightened policy stricter field other) :
    field.typeName? = other.typeName? := by
  rw [Field.typeName?, Field.typeName?, Field.reference?, Field.reference?, tightened.kind]

namespace Message.Tightened

variable {message other : Message} (tightened : Message.Tightened policy stricter message other)

include tightened

/-- The plain fields are tightened one by one. -/
theorem plainFields :
    List.Forall₂ (Field.Tightened policy stricter) message.plainFields other.plainFields := by
  refine List.rel_filter (fun field counterpart same => ?_) tightened.fields
  exact iff_of_eq (congrArg (fun group : Option String => group.isNone = true) same.group)

/-- The alternatives of a group are tightened one by one. -/
theorem alternatives (group : String) :
    List.Forall₂ (Field.Tightened policy stricter) (message.alternatives group)
      (other.alternatives group) := by
  refine List.rel_filter (fun field counterpart same => ?_) tightened.fields
  exact iff_of_eq (congrArg (fun owner : Option String => (owner == some group) = true) same.group)

/-- Each key belongs to the same plain field. -/
theorem plainField? (key : String) :
    Option.Rel (Field.Tightened policy stricter) (message.plainField? key)
      (other.plainField? key) :=
  rel_find?_name (fun _ _ same => same.name) tightened.plainFields

/-- Each key inside a group belongs to the same alternative. -/
theorem alternative? (group key : String) :
    Option.Rel (Field.Tightened policy stricter) (message.alternative? group key)
      (other.alternative? group key) :=
  rel_find?_name (fun _ _ same => same.name) (tightened.alternatives group)

/-- The references are the same. -/
theorem references : message.references = other.references := by
  have same : List.Forall₂ Eq message.references other.references := by
    refine List.rel_filterMap (fun field counterpart same => ?_) tightened.fields
    rw [same.typeName?]
    cases counterpart.typeName? with
    | none => exact .none
    | some typeName => exact .some rfl
  rwa [List.forall₂_eq_eq_eq] at same

/-- Fields whose keys do not collide do not collide in a tightened type. -/
theorem keysApart (apart : message.KeysApart) : other.KeysApart := by
  have names : message.plainFields.map Field.name = other.plainFields.map Field.name := by
    have same : List.Forall₂ Eq (message.plainFields.map Field.name)
        (other.plainFields.map Field.name) :=
      List.rel_map (fun _ _ same => same.name) tightened.plainFields
    rwa [List.forall₂_eq_eq_eq] at same
  refine ⟨names ▸ apart.plain, fun field declared => ?_⟩
  have named : field.name ∈ message.plainFields.map Field.name :=
    names ▸ List.mem_map_of_mem declared
  obtain ⟨counterpart, plain, same⟩ := List.mem_map.mp named
  exact same ▸ tightened.groups ▸ apart.groups counterpart plain

/-- A type without secret fields had none before. -/
theorem visible (clear : ∀ field ∈ other.fields, stricter.isSensitive field = false) :
    ∀ field ∈ message.fields, policy.isSensitive field = false := by
  have each := tightened.fields
  generalize message.fields = fields at each
  generalize other.fields = counterparts at each clear
  induction each with
  | nil => exact List.forall_mem_nil _
  | @cons field counterpart _ _ same _ ih =>
    obtain ⟨first, rest⟩ := List.forall_mem_cons.mp clear
    refine List.forall_mem_cons.mpr ⟨?_, ih rest⟩
    refine Bool.eq_false_iff.mpr fun secret => ?_
    rw [same.secret secret] at first
    cases first

end Message.Tightened

/-- A value stands under a name that is not declared exactly if it did so before. -/
theorem Place.Tightened.stray {place counterpart : Place}
    (same : place.Tightened policy stricter counterpart) (visible : counterpart ≠ .secret)
    (tree : Tree) : place.stray tree = counterpart.stray tree := by
  cases same with
  | secret => exact absurd rfl visible
  | @group type twin nested owner =>
    match tree with
    | .object [(active, inner)] =>
      have found := nested.alternative? owner active
      unfold Place.stray
      dsimp only
      generalize type.alternative? owner active = before at found
      generalize twin.alternative? owner active = after at found
      cases found <;> rfl
    | .null | .stripped | .bool _ | .number _ | .string _ | .list _ | .object []
    | .object (_ :: _ :: _) => rfl
  | _ => rfl

namespace Registry.Tightened

variable {registry other : Registry} (tightened : Registry.Tightened policy stricter registry other)

include tightened

/-- Looking up a name finds the same type, tightened. -/
theorem find? (name : String) :
    Option.Rel (Message.Tightened policy stricter) (registry.find? name) (other.find? name) :=
  rel_find?_name (fun _ _ same => same.name) tightened

/-- A reference means the same type, tightened. -/
theorem get? (reference : String) :
    Option.Rel (Message.Tightened policy stricter) (registry.get? reference)
      (other.get? reference) :=
  tightened.find? (withoutDot reference)

/-- The types keep their names. -/
theorem names : registry.names = other.names := by
  have same : List.Forall₂ Eq registry.names other.names :=
    List.rel_map (fun _ _ same => same.name) tightened
  rwa [List.forall₂_eq_eq_eq] at same

/-- Where keys have one meaning each, they still do. -/
theorem keysApart (apart : registry.KeysApart) : other.KeysApart := by
  intro counterpart member
  obtain ⟨message, found, same⟩ := exists_of_rel_some_right (tightened.find? counterpart.name)
    (find?_eq_some_iff.mpr ⟨member, rfl⟩)
  exact same.keysApart (apart message (find?_eq_some_iff.mp found).1)

/-- A name leads to the same names. -/
theorem leadsTo {source target : String} (path : registry.LeadsTo source target) :
    other.LeadsTo source target := by
  have steps : ∀ name next, registry.Leads name next → other.Leads name next := by
    rintro name next ⟨message, resolved, referred⟩
    obtain ⟨counterpart, found, same⟩ := exists_of_rel_some (tightened.find? name) resolved
    exact ⟨counterpart, found, same.references ▸ referred⟩
  exact ReflTransGen.mono steps source target path

/-- What is harmless under a tightened schema was harmless before. -/
theorem harmless {name : String} (harmless : other.Harmless stricter name) :
    registry.Harmless policy name := by
  intro target path
  obtain ⟨counterpart, found, clear⟩ := harmless target (tightened.leadsTo path)
  obtain ⟨message, resolved, same⟩ := exists_of_rel_some_right (tightened.find? target) found
  exact ⟨message, resolved, same.visible clear⟩

/-- The types that are cleared under a tightened schema were cleared before. -/
theorem cleared {name : String} (clear : name ∈ other.cleared stricter) :
    name ∈ registry.cleared policy := by
  obtain ⟨listed, safe⟩ := List.mem_filter.mp clear
  rw [Bool.not_eq_true', mayContainSensitive_eq_false_iff] at safe
  obtain ⟨counterpart, found, harmless⟩ := safe
  obtain ⟨message, resolved, same⟩ := exists_of_rel_some_right (tightened.get? name) found
  refine List.mem_filter.mpr ⟨tightened.names ▸ listed, ?_⟩
  rw [Bool.not_eq_true', mayContainSensitive_eq_false_iff]
  exact ⟨message, resolved, same.name ▸ tightened.harmless harmless⟩

/-- The value of a field keeps its meaning or becomes secret. -/
theorem placeOf {field counterpart : Field}
    (same : field.Tightened policy stricter counterpart) :
    Place.Tightened policy stricter (registry.placeOf policy field)
      (other.placeOf stricter counterpart) := by
  unfold Registry.placeOf
  by_cases secret : stricter.isSensitive counterpart = true
  · rw [outlook_eq_secret_iff.mpr secret]
    exact .secret _
  · have visible : ¬ policy.isSensitive field = true := fun before => secret (same.secret before)
    unfold outlook
    rw [if_neg secret, if_neg visible, same.typeName?]
    cases counterpart.typeName? with
    | none => exact .free
    | some typeName =>
      have found := tightened.get? typeName
      dsimp only
      generalize registry.get? typeName = before at found
      generalize other.get? typeName = after at found
      cases found with
      | none => exact .missing typeName
      | some nested =>
        dsimp only
        rw [same.cardinality]
        cases counterpart.cardinality with
        | singular => exact .message nested
        | repeated => exact .list nested
        | map => exact .map nested

/-- The place below a place keeps its meaning or becomes secret. -/
theorem under {place counterpart : Place} (same : place.Tightened policy stricter counterpart)
    (visible : counterpart ≠ .secret) (key : String) :
    Place.Tightened policy stricter (registry.under policy place key)
      (other.under stricter counterpart key) := by
  cases same with
  | secret => exact absurd rfl visible
  | free => exact .free
  | missing => exact .free
  | unknown => exact .free
  | list => exact .free
  | map nested => exact .message nested
  | @message type twin nested =>
    have found := nested.plainField? key
    unfold Registry.under
    dsimp only
    generalize type.plainField? key = before at found
    generalize twin.plainField? key = after at found
    cases found with
    | some same => exact tightened.placeOf same
    | none =>
      dsimp only
      rw [nested.groups]
      split
      · exact .group nested key
      · exact .unknown
  | @group type twin nested group =>
    have found := nested.alternative? group key
    unfold Registry.under
    dsimp only
    generalize type.alternative? group key = before at found
    generalize twin.alternative? group key = after at found
    cases found with
    | some same => exact tightened.placeOf same
    | none => exact .unknown

/-- The place of the root keeps its meaning. -/
theorem placeOfRoot (reference : String) :
    Place.Tightened policy stricter (registry.placeOfRoot reference)
      (other.placeOfRoot reference) := by
  have found := tightened.get? reference
  unfold Registry.placeOfRoot
  generalize registry.get? reference = before at found
  generalize other.get? reference = after at found
  cases found with
  | none => exact .missing reference
  | some same => exact .message same

end Registry.Tightened

/-- The type with a mark on further fields. -/
def Message.withMarks (message : Message) (marked : Field → Bool) : Message :=
  { message with
    fields := message.fields.map fun field =>
      { field with sensitive := field.sensitive || marked field }
    group_listed := by
      intro field member group owner
      obtain ⟨before, declared, rfl⟩ := List.mem_map.mp member
      exact message.group_listed before declared group owner }

/-- The registry with a mark on further fields of its types. -/
def Registry.withMarks (registry : Registry) (marked : Message → Field → Bool) : Registry where
  messages := registry.messages.map fun message => message.withMarks (marked message)
  distinct := by
    rw [List.map_map]
    exact registry.distinct

/-- Marking further fields, under a policy that matches all the names that were matched before,
tightens a schema. -/
theorem Registry.tightened_withMarks
    (wider : ∀ name, policy.matchesName name = true → stricter.matchesName name = true)
    (registry : Registry) (marked : Message → Field → Bool) :
    Registry.Tightened policy stricter registry (registry.withMarks marked) := by
  refine List.forall₂_map_right_iff.mpr (List.forall₂_same.mpr fun message _ => ?_)
  refine ⟨rfl, rfl, List.forall₂_map_right_iff.mpr (List.forall₂_same.mpr fun field _ => ?_)⟩
  refine ⟨rfl, rfl, rfl, rfl, fun secret => ?_⟩
  rw [Policy.isSensitive, Bool.or_eq_true] at secret ⊢
  exact secret.imp (fun before => Bool.or_eq_true_iff.mpr (.inl before)) (wider field.name)

end Schema

end Redaction

import Mathlib.Data.List.Nodup
import Redaction.Schema.Registry

/-!
# Types whose fields do not compete for keys

A type is well named if its plain fields and its groups have different names and so have the
alternatives of each group. Then a key belongs to one field at most, and which one that is does not
depend on the order of declaration.
-/

namespace Redaction.Schema

section Lookup

variable {α : Type} {name : α → String} {list : List α} {key : String}

/-- Where names are distinct, looking for a name finds the item that has it. -/
theorem find?_name_eq_some_iff (distinct : (list.map name).Nodup) {item : α} :
    list.find? (fun other => name other == key) = some item ↔ item ∈ list ∧ name item = key := by
  induction list with
  | nil => simp
  | cons first rest ih =>
    rw [List.map_cons, List.nodup_cons] at distinct
    rw [List.find?_cons]
    by_cases here : name first = key
    · simp only [here, BEq.rfl, Option.some.injEq, List.mem_cons]
      constructor
      · rintro rfl
        exact ⟨.inl rfl, here⟩
      · rintro ⟨rfl | later, named⟩
        · rfl
        · exact absurd (List.mem_map.mpr ⟨item, later, named.trans here.symm⟩) distinct.1
    · rw [beq_false_of_ne here]
      simp only [ih distinct.2, List.mem_cons]
      constructor
      · rintro ⟨later, named⟩
        exact ⟨.inr later, named⟩
      · rintro ⟨rfl | later, named⟩
        · exact absurd named here
        · exact ⟨later, named⟩

/-- Looking for a name finds nothing where no item has it. -/
theorem find?_name_eq_none_iff :
    list.find? (fun other => name other == key) = none ↔ ∀ item ∈ list, name item ≠ key := by
  simp [List.find?_eq_none]

/-- Where names are distinct, the order of the items does not matter. -/
theorem find?_name_eq_of_perm {other : List α} (distinct : (list.map name).Nodup)
    (same : list.Perm other) :
    list.find? (fun item => name item == key) = other.find? fun item => name item == key := by
  have otherDistinct : (other.map name).Nodup := (same.map name).nodup_iff.mp distinct
  ext item
  rw [find?_name_eq_some_iff distinct, find?_name_eq_some_iff otherDistinct, same.mem_iff]

variable {β : Type} {other : β → String} {counterparts : List β} {R : α → β → Prop}

/-- Where items correspond one by one and have the same names, looking for a name finds items that
correspond. -/
theorem rel_find?_name
    (same : ∀ item counterpart, R item counterpart → name item = other counterpart)
    (related : List.Forall₂ R list counterparts) :
    Option.Rel R (list.find? fun item => name item == key)
      (counterparts.find? fun item => other item == key) := by
  induction related with
  | nil => exact .none
  | @cons first second _ _ here _ ih =>
    rw [List.find?_cons, List.find?_cons, same first second here]
    cases other second == key with
    | true => exact .some here
    | false => exact ih

/-- What is found on the first side has a counterpart on the second. -/
theorem exists_of_rel_some {found : Option α} {counterpart : Option β}
    (related : Option.Rel R found counterpart) {item : α} (here : found = some item) :
    ∃ twin, counterpart = some twin ∧ R item twin := by
  subst here
  cases related with
  | some holds => exact ⟨_, rfl, holds⟩

/-- What is found on the second side has a counterpart on the first. -/
theorem exists_of_rel_some_right {found : Option α} {counterpart : Option β}
    (related : Option.Rel R found counterpart) {twin : β} (here : counterpart = some twin) :
    ∃ item, found = some item ∧ R item twin := by
  subst here
  cases related with
  | some holds => exact ⟨_, rfl, holds⟩

end Lookup

/-- Whether the fields and groups of a type do not compete for keys. -/
structure Message.WellNamed (message : Message) : Prop where
  /-- No two plain fields share a name. -/
  plain : (message.plainFields.map Field.name).Nodup
  /-- No plain field has the name of a group. -/
  apart : ∀ field ∈ message.plainFields, field.name ∉ message.groups
  /-- No two alternatives of a group share a name. -/
  alternatives : ∀ group ∈ message.groups, ((message.alternatives group).map Field.name).Nodup

instance (message : Message) : Decidable message.WellNamed :=
  decidable_of_iff ((message.plainFields.map Field.name).Nodup ∧
      (∀ field ∈ message.plainFields, field.name ∉ message.groups) ∧
      ∀ group ∈ message.groups, ((message.alternatives group).map Field.name).Nodup)
    ⟨fun ⟨plain, apart, alternatives⟩ => ⟨plain, apart, alternatives⟩,
      fun named => ⟨named.plain, named.apart, named.alternatives⟩⟩

/-- Whether no key belongs to two plain fields of a type, or to a plain field and a group. The
alternatives of a group may share names. -/
structure Message.KeysApart (message : Message) : Prop where
  /-- No two plain fields share a name. -/
  plain : (message.plainFields.map Field.name).Nodup
  /-- No plain field has the name of a group. -/
  groups : ∀ field ∈ message.plainFields, field.name ∉ message.groups

instance (message : Message) : Decidable message.KeysApart :=
  decidable_of_iff ((message.plainFields.map Field.name).Nodup ∧
      ∀ field ∈ message.plainFields, field.name ∉ message.groups)
    ⟨fun ⟨plain, groups⟩ => ⟨plain, groups⟩, fun apart => ⟨apart.plain, apart.groups⟩⟩

/-- In a well-named type no key belongs to two fields. -/
theorem Message.WellNamed.keysApart {message : Message} (named : message.WellNamed) :
    message.KeysApart := ⟨named.plain, named.apart⟩

/-- The plain field to which a key belongs. -/
def Message.plainField? (message : Message) (key : String) : Option Field :=
  message.plainFields.find? fun field => field.name == key

/-- The alternative of a group to which a key inside the group belongs. -/
def Message.alternative? (message : Message) (group key : String) : Option Field :=
  (message.alternatives group).find? fun alternative => alternative.name == key

/-- The plain field of a key is the only one. -/
theorem Message.WellNamed.plainField?_eq_some_iff {message : Message} (named : message.WellNamed)
    {key : String} {field : Field} :
    message.plainField? key = some field ↔ field ∈ message.plainFields ∧ field.name = key :=
  find?_name_eq_some_iff named.plain

/-- Whether all types are well named. -/
def Registry.WellNamed (registry : Registry) : Prop :=
  ∀ message ∈ registry.messages, message.WellNamed

instance (registry : Registry) : Decidable registry.WellNamed :=
  inferInstanceAs (Decidable (∀ message ∈ registry.messages, message.WellNamed))

/-- Whether in all types no key belongs to two plain fields, or to a plain field and a group. -/
def Registry.KeysApart (registry : Registry) : Prop :=
  ∀ message ∈ registry.messages, message.KeysApart

instance (registry : Registry) : Decidable registry.KeysApart :=
  inferInstanceAs (Decidable (∀ message ∈ registry.messages, message.KeysApart))

end Redaction.Schema

import Mathlib.Data.List.Forall2
import Redaction.Proofs.Schema.Reachable

/-!
# Types declared in another order

The fields and groups of a type may be declared in another order. What the types of a registry lead
to is not affected by that, so the same types are cleared, and in well-named types the same field is
found for each key.
-/

namespace Redaction.Schema

open Relation

/-- Whether two types of one name declare the same fields and groups, in whatever order. -/
structure Message.Reordered (message other : Message) : Prop where
  /-- The names are the same. -/
  name : message.name = other.name
  /-- The fields are the same. -/
  fields : message.fields.Perm other.fields
  /-- The groups are the same. -/
  groups : message.groups.Perm other.groups

instance (message other : Message) : Decidable (message.Reordered other) :=
  decidable_of_iff (message.name = other.name ∧ message.fields.Perm other.fields ∧
      message.groups.Perm other.groups)
    ⟨fun ⟨name, fields, groups⟩ => ⟨name, fields, groups⟩,
      fun same => ⟨same.name, same.fields, same.groups⟩⟩

/-- The fields that a declaration adds. -/
def Declaration.fields : Declaration → List Field
  | .field single => [single]
  | .oneof group alternatives => alternatives.map (·.inGroup group)

/-- The groups that a declaration mentions. -/
def Declaration.groups : Declaration → List String
  | .field single => single.group.toList
  | .oneof group _ => [group]

namespace Message

/-- A list of groups with one more at its end, unless it is listed. -/
def enlist (listed : List String) (group : String) : List String :=
  if group ∈ listed then listed else listed ++ [group]

variable {message other : Message}

/-- A group is listed at the end, if it is not listed yet. -/
theorem groups_withGroup (group : String) :
    (message.withGroup group).groups = enlist message.groups group := by
  unfold withGroup enlist
  split <;> rfl

/-- A type that gets a group listed has the groups of before and this one. -/
theorem mem_groups_withGroup_iff {group listed : String} :
    listed ∈ (message.withGroup group).groups ↔ listed ∈ message.groups ∨ listed = group := by
  unfold withGroup
  split
  · next present =>
    constructor
    · exact .inl
    · rintro (before | rfl)
      · exact before
      · exact present
  · simp

/-- A declaration keeps the name. -/
theorem name_declare (declaration : Declaration) :
    (message.declare declaration).name = message.name := by
  have listed : ∀ group, (message.withGroup group).name = message.name := by
    intro group
    unfold withGroup
    split <;> rfl
  cases declaration with
  | field field =>
    rw [declare, withField]
    split
    · rfl
    · exact listed _
  | oneof group alternatives => exact listed group

/-- A declaration adds its fields at the end. -/
theorem fields_declare (declaration : Declaration) :
    (message.declare declaration).fields = message.fields ++ declaration.fields := by
  cases declaration with
  | field field =>
    rw [declare, withField]
    split <;> simp [appendFields, Declaration.fields]
  | oneof group alternatives => simp [declare, withOneof, appendFields, Declaration.fields]

/-- A declaration lists the groups that it mentions. -/
theorem mem_groups_declare_iff {declaration : Declaration} {group : String} :
    group ∈ (message.declare declaration).groups ↔
      group ∈ message.groups ∨ group ∈ declaration.groups := by
  cases declaration with
  | field field =>
    rw [declare, withField]
    split
    · next single => simp [appendFields, Declaration.groups, single]
    · next first belongs =>
      simp [appendFields, Declaration.groups, belongs, mem_groups_withGroup_iff]
  | oneof first alternatives =>
    simp [declare, withOneof, appendFields, Declaration.groups, mem_groups_withGroup_iff]

/-- A declaration lists the groups that it mentions one after the other. -/
theorem groups_declare (declaration : Declaration) :
    (message.declare declaration).groups = declaration.groups.foldl enlist message.groups := by
  cases declaration with
  | field field =>
    rw [declare, withField]
    split
    · next single => simp [appendFields, Declaration.groups, single]
    · next group belongs =>
      simp [appendFields, Declaration.groups, belongs, groups_withGroup]
  | oneof group alternatives =>
    simp [declare, withOneof, appendFields, Declaration.groups, groups_withGroup]

/-- A declared type has the name without its dot, the fields of its declarations in order and the
groups that they mention. -/
theorem ofDeclarations_spec (name : String) (declarations : List Declaration) :
    (ofDeclarations name declarations).name = withoutDot name ∧
      (ofDeclarations name declarations).fields = declarations.flatMap Declaration.fields ∧
      ∀ group, group ∈ (ofDeclarations name declarations).groups ↔
        group ∈ declarations.flatMap Declaration.groups := by
  have start : ∀ message : Message,
      (declarations.foldl declare message).name = message.name ∧
      (declarations.foldl declare message).fields =
        message.fields ++ declarations.flatMap Declaration.fields ∧
      ∀ group, group ∈ (declarations.foldl declare message).groups ↔
        group ∈ message.groups ∨ group ∈ declarations.flatMap Declaration.groups := by
    induction declarations with
    | nil => simp
    | cons declaration rest ih =>
      intro message
      obtain ⟨name, fields, groups⟩ := ih (message.declare declaration)
      rw [List.foldl_cons]
      refine ⟨name.trans (name_declare declaration), ?_, fun group => ?_⟩
      · rw [fields, fields_declare, List.flatMap_cons, List.append_assoc]
      · rw [groups, mem_groups_declare_iff, List.flatMap_cons, List.mem_append, or_assoc]
  obtain ⟨name, fields, groups⟩ := start (empty name)
  exact ⟨name, fields, fun group => (groups group).trans (by simp [empty])⟩

namespace Reordered

/-- The orders may be exchanged. -/
theorem symm (same : message.Reordered other) : other.Reordered message :=
  ⟨same.name.symm, same.fields.symm, same.groups.symm⟩

/-- The plain fields are the same. -/
theorem plainFields (same : message.Reordered other) :
    message.plainFields.Perm other.plainFields := same.fields.filter _

/-- The alternatives of a group are the same. -/
theorem alternatives (same : message.Reordered other) (group : String) :
    (message.alternatives group).Perm (other.alternatives group) := same.fields.filter _

/-- A type in another order is as well named. -/
theorem wellNamed (same : message.Reordered other) (named : message.WellNamed) :
    other.WellNamed := by
  refine ⟨?_, fun field member listed => ?_, fun group listed => ?_⟩
  · exact (same.plainFields.map Field.name).nodup_iff.mp named.plain
  · exact named.apart field (same.plainFields.mem_iff.mpr member) (same.groups.mem_iff.mpr listed)
  · exact ((same.alternatives group).map Field.name).nodup_iff.mp
      (named.alternatives group (same.groups.mem_iff.mpr listed))

/-- Each key belongs to the same plain field. -/
theorem plainField? (same : message.Reordered other) (named : message.WellNamed) (key : String) :
    message.plainField? key = other.plainField? key :=
  find?_name_eq_of_perm named.plain same.plainFields

/-- Each key inside a group belongs to the same alternative. -/
theorem alternative? (same : message.Reordered other) (named : message.WellNamed)
    {group : String} (listed : group ∈ message.groups) (key : String) :
    message.alternative? group key = other.alternative? group key :=
  find?_name_eq_of_perm (named.alternatives group listed) (same.alternatives group)

/-- The references are the same. -/
theorem references (same : message.Reordered other) : message.references.Perm other.references :=
  same.fields.filterMap _

end Reordered

end Message

namespace Registry

/-- Whether two registries hold the same types one after the other, each with its fields and groups
in whatever order. -/
def Reordered (registry other : Registry) : Prop :=
  List.Forall₂ Message.Reordered registry.messages other.messages

instance (registry other : Registry) : Decidable (registry.Reordered other) :=
  inferInstanceAs (Decidable (List.Forall₂ Message.Reordered registry.messages other.messages))

namespace Reordered

variable {registry other : Registry} {policy : Policy}

/-- The orders may be exchanged. -/
theorem symm (same : registry.Reordered other) : other.Reordered registry :=
  List.Forall₂.flip (same.imp fun _ _ reordered => reordered.symm)

/-- The names of the types are the same. -/
theorem names (same : registry.Reordered other) : registry.names = other.names :=
  List.forall₂_eq_eq_eq ▸ List.forall₂_map_left_iff.mpr
    (List.forall₂_map_right_iff.mpr (same.imp fun _ _ reordered => reordered.name))

/-- Looking up a name finds the same type, up to the order of declaration. -/
theorem find? (same : registry.Reordered other) (name : String) :
    Option.Rel Message.Reordered (registry.find? name) (other.find? name) :=
  rel_find?_name (fun _ _ reordered => reordered.name) same

/-- A reference means the same type, up to the order of declaration. -/
theorem get? (same : registry.Reordered other) (reference : String) :
    Option.Rel Message.Reordered (registry.get? reference) (other.get? reference) :=
  same.find? (withoutDot reference)

/-- A type that is found has a counterpart. -/
theorem exists_find? (same : registry.Reordered other) {name : String} {message : Message}
    (resolved : registry.find? name = some message) :
    ∃ counterpart, other.find? name = some counterpart ∧ message.Reordered counterpart :=
  exists_of_rel_some (same.find? name) resolved

/-- A name leads to the same names. -/
theorem leadsTo (same : registry.Reordered other) {source target : String}
    (path : registry.LeadsTo source target) : other.LeadsTo source target := by
  have steps : ∀ name next, registry.Leads name next → other.Leads name next := by
    rintro name next ⟨message, resolved, referred⟩
    obtain ⟨counterpart, found, reordered⟩ := same.exists_find? resolved
    exact ⟨counterpart, found, reordered.references.mem_iff.mp referred⟩
  exact ReflTransGen.mono steps source target path

/-- The same names are harmless. -/
theorem harmless (same : registry.Reordered other) {name : String}
    (harmless : registry.Harmless policy name) : other.Harmless policy name := by
  intro target path
  obtain ⟨message, resolved, visible⟩ := harmless target (same.symm.leadsTo path)
  obtain ⟨counterpart, found, reordered⟩ := same.exists_find? resolved
  exact ⟨counterpart, found, fun field member =>
    visible field (reordered.fields.mem_iff.mpr member)⟩

/-- A reference that cannot lead to anything secret cannot do so in another order. -/
theorem mayContainSensitive_eq_false (same : registry.Reordered other) {reference : String}
    (clear : registry.mayContainSensitive policy reference = false) :
    other.mayContainSensitive policy reference = false := by
  obtain ⟨message, resolved, harmless⟩ := mayContainSensitive_eq_false_iff.mp clear
  obtain ⟨counterpart, found, reordered⟩ := same.exists_find? resolved
  exact mayContainSensitive_eq_false_iff.mpr
    ⟨counterpart, found, reordered.name ▸ same.harmless harmless⟩

/-- The same types are cleared. -/
theorem cleared (same : registry.Reordered other) (policy : Policy) :
    registry.cleared policy = other.cleared policy := by
  have reads : ∀ name, registry.mayContainSensitive policy name =
      other.mayContainSensitive policy name := fun name =>
    Bool.eq_iff_iff.mpr (not_iff_not.mp (by
      rw [Bool.not_eq_true, Bool.not_eq_true]
      exact ⟨same.mayContainSensitive_eq_false, same.symm.mayContainSensitive_eq_false⟩))
  rw [Registry.cleared, Registry.cleared, same.names]
  exact List.filter_congr fun name _ => by rw [reads name]

end Reordered

end Registry

end Redaction.Schema

import Redaction.Proofs.Schema.Reachable
import Redaction.Proofs.Tree.Path
import Redaction.Proofs.Walk.Fate

/-!
# What the parts of a tree are walked as

A reference makes a tree a message, the fields of a message make the values of its keys values of
fields, and these hold messages again. Each step leads from what a value is walked as to what one of
its parts, or the value itself, is walked as. The steps look at the schema only. Nothing secret and
no missing type comes after a harmless type.
-/

namespace Redaction.Schema

open Redaction.Tree

/-- What a value is walked as. -/
inductive Task where
  /-- A message of the type that a reference means. -/
  | root (reference : String)
  /-- A message of a type, inside the value of a field if it has an owner. -/
  | message (type : Message) (owner : Option Field)
  /-- The value of a field of a message. -/
  | field (parent : Message) (field : Field)
  /-- The messages of a type in the value of a field. -/
  | nested (parent : Message) (field : Field) (type : Message)
  /-- The value of a group of a message. -/
  | group (parent : Message) (group : String)

namespace Registry

/-- One task leads to another one for what is found after some steps. -/
inductive Passes (registry : Registry) (policy : Policy) : Task → List Step → Task → Prop where
  /-- A reference to a known type. -/
  | root {reference : String} {type : Message} (known : registry.get? reference = some type) :
      Passes registry policy (.root reference) [] (.message type none)
  /-- The value of a plain field. -/
  | plain {type : Message} {owner : Option Field} {field : Field}
      (declared : field ∈ type.plainFields) :
      Passes registry policy (.message type owner) [.key field.name] (.field type field)
  /-- The value of a group. -/
  | group {type : Message} {owner : Option Field} {group : String} (listed : group ∈ type.groups) :
      Passes registry policy (.message type owner) [.key group] (.group type group)
  /-- The value of an alternative of a group. -/
  | alternative {type : Message} {group active : String} {field : Field}
      (declared : type.alternative? group active = some field) :
      Passes registry policy (.group type group) [.key active] (.field type field)
  /-- The messages in the value of a field that is not secret. -/
  | messages {parent type : Message} {field : Field}
      (expects : registry.outlook policy field = .message type) :
      Passes registry policy (.field parent field) [] (.nested parent field type)
  /-- The only message of a field. -/
  | single {parent type : Message} {field : Field} (one : field.cardinality = .singular) :
      Passes registry policy (.nested parent field type) [] (.message type (some field))
  /-- An item of a list of messages. -/
  | item {parent type : Message} {field : Field} (several : field.cardinality = .repeated)
      (position : Nat) :
      Passes registry policy (.nested parent field type) [.index position]
        (.message type (some field))
  /-- A value of a map of messages. -/
  | entry {parent type : Message} {field : Field} (keyed : field.cardinality = .map)
      (key : String) :
      Passes registry policy (.nested parent field type) [.key key] (.message type (some field))

variable {registry : Registry} {policy : Policy}

/-- Whether the type of the messages that a task is about belongs to the registry. -/
def Knows (registry : Registry) : Task → Prop
  | .message type _ | .nested _ _ type => type ∈ registry.messages
  | _ => True

/-- From types of the registry tasks lead to types of the registry. -/
theorem Passes.knows {task next : Task} {steps : List Step}
    (passes : registry.Passes policy task steps next) (known : registry.Knows task) :
    registry.Knows next := by
  cases passes with
  | root resolved => exact mem_of_get?_eq_some resolved
  | messages expects => exact mem_of_nested?_eq_some (outlook_eq_message_iff.mp expects).2
  | single | item | entry => exact known
  | plain | group | alternative => exact trivial

/-- Whether a field is not secret and holds no messages, or those of a harmless type. -/
def ClearsField (registry : Registry) (policy : Policy) (field : Field) : Prop :=
  policy.isSensitive field = false ∧ ∀ typeName, field.typeName? = some typeName →
    ∃ type, registry.nested? field = some type ∧ registry.Harmless policy type.name

/-- Whether nothing secret and no missing type comes after a task. -/
def Clears (registry : Registry) (policy : Policy) : Task → Prop
  | .root reference =>
    ∃ type, registry.get? reference = some type ∧ registry.Harmless policy type.name
  | .message type _ | .nested _ _ type => registry.Harmless policy type.name
  | .field _ field => registry.ClearsField policy field
  | .group parent group => ∀ field ∈ parent.alternatives group, registry.ClearsField policy field

/-- The fields of a harmless type are harmless. -/
theorem clearsField_of_harmless (undotted : registry.Undotted) {type : Message}
    (member : type ∈ registry.messages) (harmless : registry.Harmless policy type.name)
    {field : Field} (declared : field ∈ type.fields) : registry.ClearsField policy field :=
  ⟨harmless.visible member field declared,
    fun _ refers => harmless.nested undotted member declared refers⟩

/-- Nothing secret and no missing type comes after what comes after a harmless type. -/
theorem Passes.clears {task next : Task} {steps : List Step}
    (passes : registry.Passes policy task steps next) (undotted : registry.Undotted)
    (known : registry.Knows task) (clears : registry.Clears policy task) :
    registry.Clears policy next := by
  cases passes with
  | root resolved =>
    obtain ⟨type, same, harmless⟩ := clears
    obtain rfl := Option.some.inj (resolved.symm.trans same)
    exact harmless
  | plain declared =>
    exact clearsField_of_harmless undotted known clears (List.mem_of_mem_filter declared)
  | group listed =>
    exact fun field declared =>
      clearsField_of_harmless undotted known clears (List.mem_of_mem_filter declared)
  | alternative declared => exact clears _ (List.mem_of_find?_eq_some declared)
  | messages expects =>
    obtain ⟨_, resolved⟩ := outlook_eq_message_iff.mp expects
    obtain ⟨typeName, refers, _⟩ := Option.bind_eq_some_iff.mp resolved
    obtain ⟨type, same, harmless⟩ := clears.2 typeName refers
    obtain rfl := Option.some.inj (resolved.symm.trans same)
    exact harmless
  | single | item | entry => exact clears

/-- A secret field is not harmless. -/
theorem not_clears_of_secret {parent : Message} {field : Field}
    (secret : policy.isSensitive field = true) : ¬ registry.Clears policy (.field parent field) :=
  fun clears => absurd clears.1 (by rw [secret]; exact Bool.noConfusion)

/-- A field with messages of a missing type is not harmless. -/
theorem not_clears_of_missing {parent : Message} {field : Field} {typeName : String}
    (missing : registry.outlook policy field = .missing typeName) :
    ¬ registry.Clears policy (.field parent field) := by
  intro clears
  obtain ⟨_, refers, lost⟩ := outlook_eq_missing_iff.mp missing
  obtain ⟨type, resolved, _⟩ := clears.2 typeName refers
  rw [nested?, refers, Option.bind_some, lost] at resolved
  cases resolved

end Registry

end Redaction.Schema

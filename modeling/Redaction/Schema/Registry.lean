import Redaction.Schema.Message

/-!
# Registries of message types

A registry holds message types of different names. The first type of a name stays: adding another
one is refused. Types are looked up by references, of which one leading dot is ignored.
-/

namespace Redaction.Schema

/-- A collection of message types with different names. -/
structure Registry where
  /-- The types in the order in which they were added. -/
  messages : List Message
  /-- No two types share a name. -/
  distinct : (messages.map Message.name).Nodup
deriving DecidableEq

namespace Registry

/-- The registry without types. -/
def empty : Registry := ⟨[], List.nodup_nil⟩

/-- The names of the types in the order in which they were added. -/
def names (registry : Registry) : List String := registry.messages.map Message.name

/-- The type of exactly this name. -/
def find? (registry : Registry) (name : String) : Option Message :=
  registry.messages.find? fun message => message.name == name

/-- The type that a reference means. -/
def get? (registry : Registry) (reference : String) : Option Message :=
  registry.find? (withoutDot reference)

/-- Whether a reference means a type of the registry. -/
def contains (registry : Registry) (reference : String) : Bool :=
  registry.names.contains (withoutDot reference)

/-- The registry with one more type, or none if its name is taken. -/
def insert? (registry : Registry) (message : Message) : Option Registry :=
  if h : message.name ∈ registry.names then none
  else
    some
      { messages := registry.messages ++ [message]
        distinct := by
          rw [List.map_append, List.nodup_append]
          exact ⟨registry.distinct, by simp, by
            intro a ha b hb same
            rw [List.map_singleton, List.mem_singleton] at hb
            exact h (hb ▸ same ▸ ha)⟩ }

/-- A type is added only if its name is free, and then it is the last one. -/
theorem insert?_eq_some_iff {registry larger : Registry} {message : Message} :
    registry.insert? message = some larger ↔
      message.name ∉ registry.names ∧ larger.messages = registry.messages ++ [message] := by
  unfold insert?
  split
  · next taken => simp [taken]
  · next free =>
    rw [Option.some.injEq]
    constructor
    · rintro rfl
      exact ⟨free, rfl⟩
    · rintro ⟨_, same⟩
      cases larger
      simp only [Registry.mk.injEq]
      exact same.symm

/-- A type is refused only if its name is taken. -/
theorem insert?_eq_none_iff {registry : Registry} {message : Message} :
    registry.insert? message = none ↔ message.name ∈ registry.names := by
  simp [insert?]

/-- The registry with one more type, unless its name is taken. -/
def insert (registry : Registry) (message : Message) : Registry :=
  (registry.insert? message).getD registry

/-- The registry of a list of types; of those with the same name the first counts. -/
def ofList (messages : List Message) : Registry := messages.foldl insert empty

/-- How many types there are. -/
def size (registry : Registry) : Nat := registry.messages.length

/-- Whether there are no types. -/
def isEmpty (registry : Registry) : Bool := registry.messages.isEmpty

/-- The names of the types in order. -/
def typeNames (registry : Registry) : List String :=
  registry.names.mergeSort fun a b => decide (a ≤ b)

/-- The fields of the type that a reference means. -/
def fieldsOf? (registry : Registry) (reference : String) : Option (List Field) :=
  (registry.get? reference).map Message.fields

/-- The names of the secret fields of the type that a reference means; none for an unknown type. -/
def sensitiveFields (registry : Registry) (reference : String) : List String :=
  match registry.get? reference with
  | some message => message.sensitiveFields
  | none => []

/-- The type of the values of a field, if they are messages of a known type. -/
def nested? (registry : Registry) (field : Field) : Option Message :=
  field.typeName?.bind registry.get?

end Registry

end Redaction.Schema

import Redaction.Schema.Field

/-!
# Message types

A message type is an ordered list of fields. Some fields are the alternatives of a group: of these a
message holds one at most, in an object under the name of the group. The groups are listed in the
order of their first mention, and every alternative belongs to a listed group.
-/

namespace Redaction.Schema

/-- A message type. -/
structure Message where
  /-- The full name. -/
  name : String
  /-- All fields in the order of their declaration, the alternatives of groups among them. -/
  fields : List Field
  /-- The groups in the order of their first mention. -/
  groups : List String
  /-- A group is listed once. -/
  groups_nodup : groups.Nodup
  /-- The group of every field is listed. -/
  group_listed : ∀ field ∈ fields, ∀ group, field.group = some group → group ∈ groups
deriving DecidableEq

/-- One step in the declaration of a message type. -/
inductive Declaration where
  /-- A field, which may already belong to a group. -/
  | field (field : Field)
  /-- A group with its alternatives. -/
  | oneof (group : String) (alternatives : List Field)
deriving DecidableEq, Repr

namespace Message

/-- The message type without fields; a leading dot is no part of the name. -/
def empty (name : String) : Message where
  name := withoutDot name
  fields := []
  groups := []
  groups_nodup := List.nodup_nil
  group_listed := by simp

/-- The message type with a group listed, at the end if it was not listed before. -/
def withGroup (message : Message) (group : String) : Message :=
  if h : group ∈ message.groups then message
  else
    { message with
      groups := message.groups ++ [group]
      groups_nodup := by
        rw [List.nodup_append]
        exact ⟨message.groups_nodup, by simp, by
          intro a ha b hb
          rw [List.mem_singleton.mp hb]
          intro same
          exact h (same ▸ ha)⟩
      group_listed := fun field member g hg =>
        List.mem_append_left _ (message.group_listed field member g hg) }

/-- Listing a group leaves the fields as they are. -/
@[simp] theorem fields_withGroup (message : Message) (group : String) :
    (message.withGroup group).fields = message.fields := by
  unfold withGroup
  split <;> rfl

/-- A group that has been listed is listed. -/
theorem mem_groups_withGroup (message : Message) (group : String) :
    group ∈ (message.withGroup group).groups := by
  unfold withGroup
  split
  · assumption
  · exact List.mem_append_right _ (List.mem_singleton.mpr rfl)

/-- The message type with fields of listed groups at its end. -/
def appendFields (message : Message) (fields : List Field)
    (listed : ∀ field ∈ fields, ∀ group, field.group = some group → group ∈ message.groups) :
    Message :=
  { message with
    fields := message.fields ++ fields
    group_listed := fun field member group hg => by
      rcases List.mem_append.mp member with old | new
      · exact message.group_listed field old group hg
      · exact listed field new group hg }

/-- The message type with one more field; the group of the field is listed. -/
def withField (message : Message) (field : Field) : Message :=
  match h : field.group with
  | none =>
    message.appendFields [field] (by
      intro f hf group hg
      rw [List.mem_singleton.mp hf, h] at hg
      nomatch hg)
  | some group =>
    (message.withGroup group).appendFields [field] (by
      intro f hf g hg
      rw [List.mem_singleton.mp hf, h] at hg
      rw [← Option.some.inj hg]
      exact message.mem_groups_withGroup group)

/-- The message type with a group and fields that become its alternatives, whatever group they
belonged to before. -/
def withOneof (message : Message) (group : String) (alternatives : List Field) : Message :=
  (message.withGroup group).appendFields (alternatives.map (·.inGroup group)) (by
    intro f hf g hg
    obtain ⟨alternative, _, rfl⟩ := List.mem_map.mp hf
    rw [← Option.some.inj hg]
    exact message.mem_groups_withGroup group)

/-- The message type after one more declaration. -/
def declare (message : Message) : Declaration → Message
  | .field field => message.withField field
  | .oneof group alternatives => message.withOneof group alternatives

/-- The message type that a list of declarations describes. -/
def ofDeclarations (name : String) (declarations : List Declaration) : Message :=
  declarations.foldl declare (empty name)

/-- The first field of a name. -/
def field? (message : Message) (name : String) : Option Field :=
  message.fields.find? fun field => field.name == name

/-- The fields that belong to no group. -/
def plainFields (message : Message) : List Field :=
  message.fields.filter fun field => field.group.isNone

/-- The alternatives of a group. -/
def alternatives (message : Message) (group : String) : List Field :=
  message.fields.filter fun field => field.group == some group

/-- The listed group to which a field belongs. -/
def groupOf? (message : Message) (field : Field) : Option String :=
  field.group.bind fun group => message.groups.find? (· == group)

/-- Whether a key of a message means something: it names a plain field or a group. An alternative
is not known at this place, only inside its group. -/
def isKnownKey (message : Message) (key : String) : Bool :=
  (message.plainFields.any fun field => field.name == key)
    || message.groups.any (· == key)

/-- The names of the fields marked as secret, in the order of their declaration. -/
def sensitiveFields (message : Message) : List String :=
  (message.fields.filter Field.sensitive).map Field.name

end Message

end Redaction.Schema

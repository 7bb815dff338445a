import Redaction.Schema.TypeName

/-!
# Fields of a message

A field has a name, under which its value stands in the message, and says what its values are, how
many of them there are and whether they are secret.
-/

namespace Redaction.Schema

/-- What a single value of a field is. -/
inductive Kind where
  /-- A text, number, truth value or byte string. -/
  | scalar
  /-- One of a list of names. -/
  | enumeration
  /-- A message of the type referred to. -/
  | message (reference : String)
deriving DecidableEq, Repr

/-- How many values a field has. -/
inductive Cardinality where
  /-- One at most. -/
  | singular
  /-- A list of them. -/
  | repeated
  /-- An object that has a value under each of its keys. -/
  | map
deriving DecidableEq, Repr

/-- A field of a message. -/
structure Field where
  /-- The name under which the value stands in the message. -/
  name : String
  /-- What a single value is. -/
  kind : Kind
  /-- How many values there are. -/
  cardinality : Cardinality := .singular
  /-- The group of which the field is one alternative, if it belongs to a group. -/
  group : Option String := none
  /-- Whether the field is marked as secret. -/
  sensitive : Bool := false
deriving DecidableEq, Repr

namespace Field

/-- A single scalar. -/
def scalar (name : String) : Field := { name, kind := .scalar }

/-- A single name out of a list of names. -/
def enumeration (name : String) : Field := { name, kind := .enumeration }

/-- A single message of the type referred to. -/
def message (name reference : String) : Field := { name, kind := .message reference }

/-- The field with a list of values. -/
def repeated (field : Field) : Field := { field with cardinality := .repeated }

/-- The field with a map of values. -/
def map (field : Field) : Field := { field with cardinality := .map }

/-- The field with the cardinality given. -/
def withCardinality (field : Field) (cardinality : Cardinality) : Field :=
  { field with cardinality }

/-- The field marked as secret. -/
def secret (field : Field) : Field := { field with sensitive := true }

/-- The field as an alternative of a group, whatever group it belonged to before. -/
def inGroup (field : Field) (group : String) : Field := { field with group := some group }

/-- The reference to the type of the values, if they are messages. -/
def reference? (field : Field) : Option String :=
  match field.kind with
  | .message reference => some reference
  | .scalar | .enumeration => none

/-- The name of the type of the values, if they are messages. -/
def typeName? (field : Field) : Option String := field.reference?.map withoutDot

end Field

end Redaction.Schema

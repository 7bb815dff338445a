import Redaction.Proofs.Schema.WellNamed
import Redaction.Proofs.Walk.Fate

/-!
# Places in a tree

A schema gives every place of a tree a meaning: a message, a list or a map of messages, a group, a
secret, a value without messages, or something that it cannot describe. The meaning of a place and
the next key determine the meaning of the place below, so no data has to be looked at on the way.
-/

namespace Redaction.Schema

/-- What the schema says about the value at a place. -/
inductive Place where
  /-- The value of a secret field. -/
  | secret
  /-- A value without messages. -/
  | free
  /-- The value of a field that refers to a missing type. -/
  | missing (typeName : String)
  /-- The value of a key, or of an alternative, that is not declared. -/
  | unknown
  /-- A message. -/
  | message (type : Message)
  /-- A list of messages. -/
  | list (type : Message)
  /-- An object with messages as its values. -/
  | map (type : Message)
  /-- An object with one alternative of a group of a message. -/
  | group (type : Message) (group : String)
deriving DecidableEq

namespace Place

/-- The place of messages of a type, as many as the cardinality says. -/
def ofMessages (type : Message) : Cardinality → Place
  | .singular => .message type
  | .repeated => .list type
  | .map => .map type

/-- The place of the items of a list. -/
def item : Place → Place
  | .list type => .message type
  | _ => .free

/-- Whether the schema describes what is inside a value at a place. -/
def framed : Place → Bool
  | .message _ | .list _ | .map _ | .group _ _ => true
  | .secret | .free | .missing _ | .unknown => false

/-- Whether the value at a place may be removed together with its key. -/
def removable : Place → Bool
  | .unknown | .group _ _ => true
  | _ => false

/-- Whether a tree has the form that a place needs for the schema to describe what is inside. -/
def accepts : Place → Tree → Bool
  | .message _, .object _ | .map _, .object _ | .list _, .list _ | .group _ _, .object [_] => true
  | _, _ => false

/-- Whether a value stands under a name that is not declared: at its place, or as the alternative of
a group. -/
def stray : Place → Tree → Bool
  | .unknown, _ => true
  | .group type owner, .object [(active, _)] => (type.alternative? owner active).isNone
  | _, _ => false

/-- What stands under an undeclared name may be removed. -/
theorem removable_of_stray {place : Place} {tree : Tree} (stray : place.stray tree = true) :
    place.removable = true := by
  cases place with
  | unknown | group => rfl
  | _ => cases stray

/-- An undeclared alternative stands in an object of the form that a group needs. -/
theorem accepts_of_stray {place : Place} {tree : Tree} (framed : place.framed = true)
    (stray : place.stray tree = true) : place.accepts tree = true := by
  unfold Place.stray at stray
  split at stray
  · cases framed
  · rfl
  · cases stray

/-- Only where the schema describes what is inside is there a form that it needs. -/
theorem framed_of_accepts {place : Place} {tree : Tree} (accepted : place.accepts tree = true) :
    place.framed = true := by
  cases place with
  | message | list | map | group => rfl
  | _ => cases accepted

end Place

namespace Registry

/-- The place of the value of a field. -/
def placeOf (registry : Registry) (policy : Policy) (field : Field) : Place :=
  match registry.outlook policy field with
  | .secret => .secret
  | .scalar => .free
  | .missing typeName => .missing typeName
  | .message nested => .ofMessages nested field.cardinality

/-- The place of the value of a key in the object at a place. -/
def under (registry : Registry) (policy : Policy) : Place → String → Place
  | .message type, key =>
    match type.plainField? key with
    | some field => registry.placeOf policy field
    | none => if key ∈ type.groups then .group type key else .unknown
  | .map type, _ => .message type
  | .group type group, key =>
    match type.alternative? group key with
    | some field => registry.placeOf policy field
    | none => .unknown
  | _, _ => .free

/-- The place of the messages that a reference means. -/
def placeOfRoot (registry : Registry) (reference : String) : Place :=
  match registry.get? reference with
  | some type => .message type
  | none => .missing reference

variable {registry : Registry} {policy : Policy} {type : Message} {group key : String}
  {field : Field}

/-- Messages of declared fields are never removed. -/
theorem removable_ofMessages (type : Message) (cardinality : Cardinality) :
    (Place.ofMessages type cardinality).removable = false := by
  cases cardinality <;> rfl

/-- The value of a field is never removed. -/
theorem removable_placeOf (field : Field) : (registry.placeOf policy field).removable = false := by
  unfold placeOf
  cases registry.outlook policy field with
  | message nested => exact removable_ofMessages nested field.cardinality
  | _ => rfl

/-- Under the name of a plain field of a message stands the value of this field. -/
theorem under_message_of_plainField? (declared : type.plainField? key = some field) :
    registry.under policy (.message type) key = registry.placeOf policy field := by
  simp only [under, declared]

/-- Under the name of a group stands the group, unless a plain field has the name. -/
theorem under_message_of_listed (foreign : type.plainField? key = none)
    (listed : key ∈ type.groups) :
    registry.under policy (.message type) key = .group type key := by
  simp only [under, foreign, if_pos listed]

/-- Under any other key of a message stands a value that is not declared. -/
theorem under_message_of_unknown (foreign : type.plainField? key = none)
    (unlisted : key ∉ type.groups) : registry.under policy (.message type) key = .unknown := by
  simp only [under, foreign, if_neg unlisted]

/-- Under the name of an alternative of a group stands the value of its field. -/
theorem under_group_of_alternative? (declared : type.alternative? group key = some field) :
    registry.under policy (.group type group) key = registry.placeOf policy field := by
  simp only [under, declared]

/-- Under any other key of a group stands a value that is not declared. -/
theorem under_group_of_unknown (unknown : type.alternative? group key = none) :
    registry.under policy (.group type group) key = .unknown := by
  simp only [under, unknown]

end Registry

end Redaction.Schema

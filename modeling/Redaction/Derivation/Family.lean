import Redaction.Derivation.Implementation
import Redaction.Schema.Provider

/-!
# Families of derived types

The types that are derived together refer to each other by paths and names, and what these mean
depends on where they are written. A family gives each of its message types the description that its
implementation builds, in which every reference has become the name of a message type, and the types
that its registration reaches.
-/

namespace Redaction.Derivation

open Schema (Declaration Field Kind Message Provider)

/-- What types mean: for the path of a declaration, the site, and a type that is written in it, the
path of the declaration that is meant, if any is. -/
abbrev Meaning := String → TypeExpr → Option String

/-- The meaning of types where no two declarations share a name: wherever a type is written, the
last part of its path tells. -/
def Meaning.byName : Meaning := fun _ type =>
  type.lastSegment?.map fun segment => plainIdent segment.name

/-- The implementations that are derived together. -/
structure Family where
  /-- The message types. -/
  messages : List MessageImpl
  /-- The groups. -/
  oneofs : List OneofImpl
  /-- The meaning of the types in their declarations. -/
  meaning : Meaning := .byName

namespace Family

/-- The family that is derived from the declarations of message types and those of groups. -/
def derive (messages oneofs : List Item) (meaning : Meaning := .byName) :
    Except Complaint Family := do
  .ok ⟨← messages.mapM deriveMessage, ← oneofs.mapM deriveOneof, meaning⟩

/-- The message type with the path given. -/
def own? (family : Family) (path : String) : Option MessageImpl :=
  family.messages.find? fun impl => impl.path == path

/-- The message type that a type at a site means. -/
def message? (family : Family) (site : String) (type : TypeExpr) : Option MessageImpl :=
  (family.meaning site type).bind family.own?

/-- The group that a type at a site means. -/
def oneof? (family : Family) (site : String) (type : TypeExpr) : Option OneofImpl := do
  let path ← family.meaning site type
  family.oneofs.find? fun impl => impl.path == path

/-- The kind of the values of a field. Messages are referred to by the names of their types. -/
def kind? (family : Family) (site : String) : ElementKind → Option Kind
  | .scalar => some .scalar
  | .enumeration => some .enumeration
  | .message type => (family.message? site type).map fun impl => .message impl.typeName

/-- The field that a description stands for. -/
def field? (family : Family) (site : String) (call : FieldCall) : Option Field := do
  let kind ← family.kind? site call.kind
  some { name := call.name, kind, cardinality := call.cardinality, sensitive := call.secret }

/-- The alternatives of a group, which belong to no group yet. -/
def alternatives? (family : Family) (impl : OneofImpl) : Option (List Field) :=
  impl.alternatives.mapM (family.field? impl.path)

/-- The declaration that a call stands for. A secret group has secret alternatives only. -/
def declaration? (family : Family) (site : String) : BuilderCall → Option Declaration
  | .field call => (family.field? site call).map .field
  | .oneof group type secret => do
    let alternatives ← family.alternatives? (← family.oneof? site type)
    some (.oneof group (if secret then alternatives.map Field.secret else alternatives))

/-- The description that an implementation builds. -/
def description? (family : Family) (impl : MessageImpl) : Option Message := do
  some (.ofDeclarations impl.typeName (← impl.calls.mapM (family.declaration? impl.path)))

/-- The message types that a registration registers. A group stands for those of its
alternatives. -/
def registered? (family : Family) (site : String) : Registration → Option (List MessageImpl)
  | .message type => (family.message? site type).map ([·])
  | .alternatives type => do
    let group ← family.oneof? site type
    group.registrations.mapM (family.message? group.path)

/-- The message type of an implementation as one that describes itself. There is none if the family
lacks a type that is referred to. -/
def provider? (family : Family) (impl : MessageImpl) : Option Provider := do
  let message ← family.description? impl
  let registered ← impl.registrations.mapM (family.registered? impl.path)
  some
    { ident := impl.path, typeName := impl.typeName, message
      dependencies := registered.flatten.map MessageImpl.path }

/-- All message types of the family as types that describe themselves. -/
def providers? (family : Family) : Option (List Provider) := family.messages.mapM family.provider?

end Family

end Redaction.Derivation

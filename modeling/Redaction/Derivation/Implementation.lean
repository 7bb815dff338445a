import Redaction.Derivation.Naming
import Redaction.Derivation.Options
import Redaction.Derivation.Shape

/-!
# Derived implementations

What is derived from a declaration: calls that describe the fields, and registrations of the types
to which they lead. A struct becomes a message type with one call for each field that is not left
out; an enumeration becomes a group with one alternative for each variant.
-/

namespace Redaction.Derivation

open Schema (Cardinality)

/-- What a single value of a described field is. -/
inductive ElementKind where
  /-- A single value. -/
  | scalar
  /-- One of a list of names. -/
  | enumeration
  /-- A message of the type written. -/
  | message (type : TypeExpr)

/-- The description of a field. -/
structure FieldCall where
  /-- The name. -/
  name : String
  /-- What a single value is. -/
  kind : ElementKind
  /-- How many values there are. -/
  cardinality : Cardinality
  /-- Whether the field is secret. -/
  secret : Bool

/-- A call that describes a part of a message type. -/
inductive BuilderCall where
  /-- A field. -/
  | field (call : FieldCall)
  /-- A group, whose alternatives the type written describes. All of them may be secret. -/
  | oneof (group : String) (type : TypeExpr) (secret : Bool)

/-- The registration of types to which a field leads. -/
inductive Registration where
  /-- A message type and everything to which it leads. -/
  | message (type : TypeExpr)
  /-- Everything to which the alternatives of a group lead. -/
  | alternatives (type : TypeExpr)

/-- The implementation of a message type. -/
structure MessageImpl where
  /-- The name of the declaration. -/
  ident : String
  /-- The full name of the message type. -/
  typeName : String
  /-- The descriptions of the fields, in the order of their declaration. -/
  calls : List BuilderCall
  /-- The registrations, in the order of the fields. -/
  registrations : List Registration
  /-- The path under which the program has the declaration. -/
  path : String := plainIdent ident

/-- The implementation of a group. -/
structure OneofImpl where
  /-- The name of the declaration. -/
  ident : String
  /-- The descriptions of the alternatives, in the order of their declaration. -/
  alternatives : List FieldCall
  /-- The message types to be registered, in the order of the alternatives. -/
  registrations : List TypeExpr
  /-- The path under which the program has the declaration. -/
  path : String := plainIdent ident

/-- The kind of the values of a field: the one chosen, or else the one that the type suggests. -/
def elementKind (kind : Option KindOption) (element : TypeExpr) :
    Except Complaint ElementKind :=
  match kind with
  | some .message => .ok (.message element)
  | some .enumeration => .ok .enumeration
  | some .scalar => .ok .scalar
  | some .oneof => .error .oneofAsField
  | none => .ok (if element.isScalar then .scalar else .message element)

/-- The description of a field that is no group. -/
def describeField (name : String) (type : TypeExpr) (options : FieldOptions) :
    Except Complaint FieldCall := do
  let shape := type.shape
  let kind ← elementKind options.kind shape.element
  .ok { name, kind, cardinality := shape.cardinality, secret := options.secret }

/-- The type of the values of a field, if they are messages. -/
def FieldCall.messageType? (call : FieldCall) : Option TypeExpr :=
  match call.kind with
  | .message type => some type
  | .scalar | .enumeration => none

/-- The description of a field that holds a group. -/
def describeOneof (group : String) (type : TypeExpr) (secret : Bool) :
    Except Complaint (BuilderCall × Registration) :=
  let shape := type.shape
  match shape.cardinality with
  | .singular => .ok (.oneof group shape.element secret, .alternatives shape.element)
  | .repeated | .map => .error .severalGroups

/-- The calls and registrations of the fields of a struct. The names seen so far must not occur
again. -/
def describeFields : List String → List NamedField →
    Except Complaint (List BuilderCall × List Registration)
  | _, [] => .ok ([], [])
  | seen, field :: rest => do
    let options ← FieldOptions.ofAttributes field.attributes
    if options.skip then describeFields seen rest
    else
      let name := options.name.getD (plainIdent field.ident)
      if seen.contains name then .error (.duplicateField name)
      else
        let (call, registrations) ←
          if options.kind = some .oneof then do
            let (call, registration) ← describeOneof name field.type options.secret
            .ok (call, [registration])
          else do
            let call ← describeField name field.type options
            .ok (.field call, call.messageType?.toList.map .message)
        let (calls, later) ← describeFields (name :: seen) rest
        .ok (call :: calls, registrations ++ later)

/-- The type of the one value that a variant wraps. -/
def newtypeOf : Fields → Except Complaint TypeExpr
  | .tuple [field] => .ok field.type
  | .tuple _ | .named _ | .unit => .error .notNewtype

/-- The descriptions of the variants of an enumeration, and the message types among them. The names
seen so far must not occur again. -/
def describeVariants : List String → List Variant →
    Except Complaint (List FieldCall × List TypeExpr)
  | _, [] => .ok ([], [])
  | seen, variant :: rest => do
    let type ← newtypeOf variant.fields
    let options ← FieldOptions.ofAttributes variant.attributes
    if options.skip then .error .skippedAlternative
    else if options.kind = some .oneof then .error .nestedOneof
    else
      let name := options.name.getD (snakeCase (plainIdent variant.ident))
      if seen.contains name then .error (.duplicateAlternative name)
      else
        let call ← describeField name type options
        if call.cardinality ≠ .singular then .error .severalAlternativeValues
        else
          let (calls, later) ← describeVariants (name :: seen) rest
          .ok (call :: calls, call.messageType?.toList ++ later)

/-- A type with parameters stands for many types, and a schema names one. -/
def requireConcrete (target : Target) (item : Item) : Except Complaint Unit :=
  if item.parameters.isEmpty then .ok () else .error (.genericType target)

/-- The message type that is derived from a declaration. -/
def deriveMessage (item : Item) : Except Complaint MessageImpl := do
  requireConcrete .message item
  let options ← ContainerOptions.ofAttributes item.attributes
  match item.body with
  | .struct (.named fields) =>
    let (calls, registrations) ← describeFields [] fields
    .ok
      { ident := item.ident, typeName := options.typeName item.ident, calls, registrations
        path := item.path }
  | .struct (.tuple _) => .error .messageFromTuple
  | .struct .unit => .error (.messageFromUnit item.ident)
  | .enum _ => .error .messageFromEnum
  | .union _ => .error .messageFromUnion

/-- The group that is derived from a declaration. -/
def deriveOneof (item : Item) : Except Complaint OneofImpl := do
  requireConcrete .oneof item
  let options ← ContainerOptions.ofAttributes item.attributes
  if !options.isEmpty then .error .namedOneof
  else
    match item.body with
    | .enum variants =>
      let (alternatives, registrations) ← describeVariants [] variants
      .ok { ident := item.ident, alternatives, registrations, path := item.path }
    | .struct _ => .error .oneofFromStruct
    | .union _ => .error .oneofFromUnion

end Redaction.Derivation

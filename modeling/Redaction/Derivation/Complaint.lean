/-!
# Complaints about declarations

A declaration from which no schema can be derived is refused with one complaint, the first in the
order of the source text.
-/

namespace Redaction.Derivation

/-- What is derived from a declaration. -/
inductive Target where
  /-- A message type. -/
  | message
  /-- A group of alternatives. -/
  | oneof
deriving DecidableEq, Repr

/-- The name of what is derived. -/
def Target.name : Target → String
  | .message => "Message"
  | .oneof => "Oneof"

/-- The kinds that can be chosen for a field. -/
inductive KindOption where
  /-- A message, whatever the type looks like. -/
  | message
  /-- One of a list of names. -/
  | enumeration
  /-- A single value, whatever the type looks like. -/
  | scalar
  /-- A group of alternatives. -/
  | oneof
deriving DecidableEq, Repr

/-- The keyword of a kind. -/
def KindOption.keyword : KindOption → String
  | .message => "message"
  | .enumeration => "enumeration"
  | .scalar => "scalar"
  | .oneof => "oneof"

/-- The options that name a whole type. -/
inductive ContainerOption where
  /-- The full name. -/
  | name
  /-- The part before the name. -/
  | package
deriving DecidableEq, Repr

/-- The keyword of an option. -/
def ContainerOption.keyword : ContainerOption → String
  | .name => "name"
  | .package => "package"

/-- Why no schema can be derived from a declaration. -/
inductive Complaint where
  /-- The type has parameters. -/
  | genericType (target : Target)
  /-- A literal stands where an option is expected. -/
  | literalOption
  /-- No equals sign follows an option that needs a value. -/
  | equalsExpected
  /-- The value of an option is no text. -/
  | textExpected
  /-- Something follows an option that takes no value. -/
  | commaExpected
  /-- A field has an unknown option. -/
  | unknownFieldOption
  /-- A field has two kinds. -/
  | conflictingKinds (first second : KindOption)
  /-- A field has two names. -/
  | duplicateFieldName
  /-- A field has an empty name. -/
  | emptyFieldName
  /-- A field attribute has no options. -/
  | bareFieldAttribute
  /-- A field attribute is a value. -/
  | fieldAttributeValue
  /-- A field that is left out has other options. -/
  | skipCombined
  /-- A type has an unknown option. It is known by its name, if that is a single word. -/
  | unknownContainerOption (word : Option String)
  /-- An option of a type is given twice. -/
  | duplicateContainerOption (option : ContainerOption)
  /-- An option of a type is empty apart from dots. -/
  | emptyContainerOption (option : ContainerOption)
  /-- A type attribute has no options. -/
  | bareContainerAttribute
  /-- A type attribute is a value. -/
  | containerAttributeValue
  /-- A type has both a full name and a package. -/
  | nameAndPackage
  /-- A group has a name of its own. -/
  | namedOneof
  /-- A message type is derived from an enumeration. -/
  | messageFromEnum
  /-- A message type is derived from a union. -/
  | messageFromUnion
  /-- A message type is derived from a tuple. -/
  | messageFromTuple
  /-- A message type is derived from a struct without a body. -/
  | messageFromUnit (ident : String)
  /-- A group is derived from a struct. -/
  | oneofFromStruct
  /-- A group is derived from a union. -/
  | oneofFromUnion
  /-- Two fields have the same name. -/
  | duplicateField (name : String)
  /-- Two alternatives have the same name. -/
  | duplicateAlternative (name : String)
  /-- A field with a group is a list or a map. -/
  | severalGroups
  /-- An alternative does not wrap exactly one value. -/
  | notNewtype
  /-- An alternative is left out. -/
  | skippedAlternative
  /-- An alternative is a group. -/
  | nestedOneof
  /-- An alternative is a list or a map. -/
  | severalAlternativeValues
  /-- A group is treated as a single field. -/
  | oneofAsField
deriving DecidableEq, Repr

/-- The wording of a complaint. -/
def Complaint.message : Complaint → String
  | .genericType target =>
    "`" ++ target.name
      ++ "` cannot be derived for generic types; a schema names one concrete type"
  | .literalOption => "unexpected literal in nested attribute, expected ident"
  | .equalsExpected => "expected `=`"
  | .textExpected => "expected string literal"
  | .commaExpected => "expected `,`"
  | .unknownFieldOption =>
    "unknown field option; expected one of `secret`, `message`, `enumeration`, `scalar`, " ++
      "`oneof`, `skip`, `name`"
  | .conflictingKinds first second =>
    "conflicting field kinds `" ++ first.keyword ++ "` and `" ++ second.keyword ++ "`"
  | .duplicateFieldName => "duplicate option `name`"
  | .emptyFieldName => "`name` must not be empty"
  | .bareFieldAttribute => "expected options, e.g. #[proto(secret)]"
  | .fieldAttributeValue => "name-value syntax is not supported for #[proto]"
  | .skipCombined => "`skip` cannot be combined with other options"
  | .unknownContainerOption word =>
    "unknown container option `" ++ word.getD "?" ++ "`; expected `name` or `package`"
  | .duplicateContainerOption option => "duplicate container option `" ++ option.keyword ++ "`"
  | .emptyContainerOption option => "`" ++ option.keyword ++ "` must not be empty"
  | .bareContainerAttribute =>
    "expected `#[proto(name = \"...\")]` or `#[proto(package = \"...\")]`"
  | .containerAttributeValue =>
    "name-value syntax is not supported for container-level #[proto]"
  | .nameAndPackage =>
    "`name` and `package` cannot be combined; `name` is already fully qualified"
  | .namedOneof =>
    "oneof groups take their name from the owning field; remove `name`/`package`"
  | .messageFromEnum =>
    "`Message` cannot be derived for enums; derive `Oneof` for oneof groups"
  | .messageFromUnion => "`Message` cannot be derived for unions"
  | .messageFromTuple => "`Message` requires named fields; tuple structs have no field names"
  | .messageFromUnit ident =>
    "unit structs serialize as null; declare `struct " ++ ident
      ++ " \x7b\x7d` for an empty message"
  | .oneofFromStruct => "`Oneof` can only be derived for enums; derive `Message` for structs"
  | .oneofFromUnion => "`Oneof` cannot be derived for unions"
  | .duplicateField name => "duplicate field name `" ++ name ++ "`"
  | .duplicateAlternative name => "duplicate alternative name `" ++ name ++ "`"
  | .severalGroups => "a oneof group cannot be repeated or a map"
  | .notNewtype => "oneof alternatives must be newtype variants, e.g. `Mount(MountVolume)`"
  | .skippedAlternative => "`skip` is not supported on oneof alternatives"
  | .nestedOneof => "oneof groups cannot be nested"
  | .severalAlternativeValues => "oneof alternatives cannot be repeated or maps"
  | .oneofAsField =>
    "oneof groups are described by their alternatives, not as a single field"

end Redaction.Derivation

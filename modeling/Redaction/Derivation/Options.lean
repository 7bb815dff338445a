import Redaction.Derivation.Complaint
import Redaction.Derivation.Item

/-!
# Options of fields and of whole types

The options of a declaration are gathered from all of its attributes that concern the schema, one
option after the other. The first option that does not fit is complained about; what only shows in
the end is checked in the end.
-/

namespace Redaction.Derivation

/-- Whether a truth value written as a bare option is the word itself. -/
def truthWord (value : Bool) : String := if value then "true" else "false"

/-- Nothing may follow an option that takes no value. -/
def MetaTail.requireNothing : MetaTail → Except Complaint Unit
  | .nothing => .ok ()
  | .value _ | .arguments _ => .error .commaExpected

/-- The text that follows an option as its value. -/
def MetaTail.requireText : MetaTail → Except Complaint String
  | .value (.text given) => .ok given
  | .value (.number _) | .value (.truth _) => .error .textExpected
  | .nothing | .arguments _ => .error .equalsExpected

/-- The path of an option and what follows it. The truth values are words and can be paths; other
literals cannot. -/
def Meta.asOption : Meta → Except Complaint (List String × MetaTail)
  | .option path tail => .ok (path, tail)
  | .literal (.truth value) => .ok ([truthWord value], .nothing)
  | .literal (.text _) | .literal (.number _) => .error .literalOption

/-- The options of a field or an alternative. -/
structure FieldOptions where
  /-- Whether the value is secret. -/
  secret : Bool := false
  /-- The kind, if one has been chosen. -/
  kind : Option KindOption := none
  /-- Whether the field is left out of the schema. -/
  skip : Bool := false
  /-- The name under which the value is written, if it is not that of the declaration. -/
  name : Option String := none
deriving DecidableEq, Repr

namespace FieldOptions

/-- The options with a kind, unless there is one already. -/
def withKind (options : FieldOptions) (kind : KindOption) : Except Complaint FieldOptions :=
  match options.kind with
  | some previous => .error (.conflictingKinds previous kind)
  | none => .ok { options with kind := some kind }

/-- The options with a name, unless there is one already. -/
def withName (options : FieldOptions) (name : String) : Except Complaint FieldOptions :=
  if options.name.isSome then .error .duplicateFieldName
  else if name = "" then .error .emptyFieldName
  else .ok { options with name := some name }

/-- The option that stands for a kind. -/
def kindOf? (path : List String) : Option KindOption :=
  [.message, .enumeration, .scalar, .oneof].find? fun kind => path == [kind.keyword]

/-- The options with one more option. -/
def add (options : FieldOptions) (item : Meta) : Except Complaint FieldOptions := do
  let (path, tail) ← item.asOption
  if path = ["secret"] then
    tail.requireNothing
    .ok { options with secret := true }
  else if path = ["skip"] then
    tail.requireNothing
    .ok { options with skip := true }
  else if path = ["name"] then options.withName (← tail.requireText)
  else
    match kindOf? path with
    | some kind =>
      let options ← options.withKind kind
      tail.requireNothing
      .ok options
    | none => .error .unknownFieldOption

/-- The options with those of one more attribute. -/
def addAttribute (options : FieldOptions) (attr : Attribute) :
    Except Complaint FieldOptions :=
  if attr.concernsSchema then
    match attr.body with
    | .options items => items.foldlM add options
    | .bare => .error .bareFieldAttribute
    | .value _ => .error .fieldAttributeValue
  else .ok options

/-- Whether a field that is left out has other options. -/
def contradictory (options : FieldOptions) : Bool :=
  options.skip && (options.secret || options.kind.isSome || options.name.isSome)

/-- The options that the attributes of a field or an alternative give. -/
def ofAttributes (attributes : List Attribute) : Except Complaint FieldOptions := do
  let options ← attributes.foldlM addAttribute {}
  if options.contradictory then .error .skipCombined else .ok options

end FieldOptions

/-- A text without the dots at its beginning. -/
def withoutDots (text : String) : String :=
  String.ofList (text.toList.dropWhile fun c => c == '.')

/-- The options of a whole type. -/
structure ContainerOptions where
  /-- The full name of the type. -/
  name : Option String := none
  /-- The part of the full name before the name of the declaration. -/
  package : Option String := none
deriving DecidableEq, Repr

namespace ContainerOptions

/-- Accepts the value of an option that is not given yet. -/
def acceptOnce (option : ContainerOption) (previous : Option String) (value : String) :
    Except Complaint String :=
  if previous.isSome then .error (.duplicateContainerOption option)
  else if withoutDots value = "" then .error (.emptyContainerOption option)
  else .ok value

/-- The options with one more option. -/
def add (options : ContainerOptions) (item : Meta) : Except Complaint ContainerOptions := do
  let (path, tail) ← item.asOption
  match path with
  | [word] =>
    if word = "name" then
      let name ← acceptOnce .name options.name (← tail.requireText)
      .ok { options with name := some name }
    else if word = "package" then
      let package ← acceptOnce .package options.package (← tail.requireText)
      .ok { options with package := some package }
    else .error (.unknownContainerOption (some word))
  | _ => .error (.unknownContainerOption none)

/-- The options with those of one more attribute. -/
def addAttribute (options : ContainerOptions) (attr : Attribute) :
    Except Complaint ContainerOptions :=
  if attr.concernsSchema then
    match attr.body with
    | .options items => items.foldlM add options
    | .bare => .error .bareContainerAttribute
    | .value _ => .error .containerAttributeValue
  else .ok options

/-- The options that the attributes of a type give. -/
def ofAttributes (attributes : List Attribute) : Except Complaint ContainerOptions := do
  let options ← attributes.foldlM addAttribute {}
  if options.name.isSome && options.package.isSome then .error .nameAndPackage else .ok options

/-- Whether there are no options. -/
def isEmpty (options : ContainerOptions) : Bool := options.name.isNone && options.package.isNone

/-- The full name of the type: the one given, or that of the declaration, in its package if there is
one. -/
def typeName (options : ContainerOptions) (ident : String) : String :=
  match options.name, options.package with
  | some name, _ => withoutDots name
  | none, some package => withoutDots package ++ "." ++ plainIdent ident
  | none, none => plainIdent ident

end ContainerOptions

end Redaction.Derivation

import Redaction.Config.Basic
import Redaction.Walk.Clearance
import Redaction.Walk.Walked

/-!
# Redaction by walking

A walker goes through a tree in step with the schema. Secret values are taken out, messages inside
messages are entered, and what the schema cannot describe is left to the fallback or, where it is
merely unknown, to the rule for unknown fields. A walk never fails.
-/

namespace Redaction

open Schema

/-- What a walk has to know. -/
structure Walker where
  /-- The known message types. -/
  registry : Registry
  /-- Which fields are secret. -/
  policy : Policy
  /-- What is done with values that do not fit the schema. -/
  fallback : Fallback
  /-- What is done with data that the schema does not mention. -/
  unknownFields : UnknownFields
  /-- The names of the types whose messages are left alone. -/
  cleared : List String

namespace Walker

/-- The walker of a configuration. Only where unknown data is kept may messages be left alone;
otherwise every level has to be searched for unknown keys. -/
def ofConfig (registry : Registry) (config : Config) (additional : AdditionalNames) : Walker :=
  let policy : Policy := ⟨config.secretSuffix, additional⟩
  { registry, policy
    fallback := config.fallback
    unknownFields := config.unknownFields
    cleared := if config.unknownFields = .keep then registry.cleared policy else [] }

/-- The walker that leaves no message alone. -/
def thorough (walker : Walker) : Walker := { walker with cleared := [] }

/-- Whether messages of a type are left alone. -/
def skips (walker : Walker) (message : Message) : Bool := walker.cleared.contains message.name

/-- Reports a problem and takes out the value in question, unless it may pass. -/
def fallBack (walker : Walker) (problem : Problem) (value : Tree) : Walked Tree :=
  ⟨match walker.fallback with
    | .strip => .stripped
    | .passthrough => value, [problem]⟩

/-- Falls back for a value of the wrong shape. A missing value and one that has been taken out have
no wrong shape. -/
def misshapen (walker : Walker) (message field : String) (expected : Expectation) (value : Tree) :
    Walked Tree :=
  match value with
  | .null | .stripped => pure value
  | other => walker.fallBack (.unexpectedShape message field expected other.shape) other

/-- The members of a message after its unknown keys have been dealt with. -/
def settleUnknown (walker : Walker) (message : Message) (members : List (String × Tree)) :
    List (String × Tree) :=
  match walker.unknownFields with
  | .keep => members
  | .drop => members.filter fun member => message.isKnownKey member.1
  | .strip => members.map fun member =>
    if message.isKnownKey member.1 then member else (member.1, .stripped)

/-- How a message inside a field is entered: its type, the field and the value. -/
abbrev Enter := Message → Field → Tree → Walked Tree

/-- Walks the messages in the value of a field: one, a list of them or a map. -/
def walkNested (walker : Walker) (enter : Enter) (message : Message) (field : Field)
    (nested : Message) (value : Tree) : Walked Tree :=
  match field.cardinality with
  | .singular => enter nested field value
  | .repeated =>
    match value with
    | .list items => Tree.list <$> Walked.items (enter nested field) items
    | other => walker.misshapen message.name field.name .list other
  | .map =>
    match value with
    | .object members => Tree.object <$> Walked.members (enter nested field) members
    | other => walker.misshapen message.name field.name .map other

/-- Walks the value of a field of a message. A secret value is taken out before anything is asked
about it. -/
def walkField (walker : Walker) (enter : Enter) (message : Message) (field : Field)
    (value : Tree) : Walked Tree :=
  if walker.policy.isSensitive field then pure .stripped
  else
    match field.typeName? with
    | none => pure value
    | some typeName =>
      match walker.registry.get? typeName with
      | none => walker.fallBack (.unknownType typeName) value
      | some nested =>
        if walker.skips nested then pure value
        else walker.walkNested enter message field nested value

/-- Walks the value of a group of a message: an object whose only key names the alternative in use.
The result is none if the group has to go. -/
def walkGroup (walker : Walker) (enter : Enter) (message : Message) (group : String)
    (value : Tree) : Walked (Option Tree) :=
  match value with
  | .null | .stripped => pure (some value)
  | .object [(active, inner)] =>
    match (message.alternatives group).find? fun alternative => alternative.name == active with
    | some field => do
      let inner ← walker.walkField enter message field inner
      pure (some (.object [(active, inner)]))
    | none =>
      match walker.unknownFields with
      | .keep => pure (some value)
      | .strip => pure (some (.object [(active, .stripped)]))
      | .drop => pure none
  | .object [] => some <$> walker.fallBack (.malformedOneof message.name group .noAlternative) value
  | .object (_ :: _ :: _) =>
    some <$> walker.fallBack (.malformedOneof message.name group .severalAlternatives) value
  | other =>
    some <$> walker.fallBack (.malformedOneof message.name group (.shape other.shape)) other

/-- Walks the plain fields of a message in the order of their declaration. -/
def walkPlainFields (walker : Walker) (enter : Enter) (message : Message) :
    List Field → List (String × Tree) → Walked (List (String × Tree))
  | [], members => pure members
  | field :: rest, members => do
    let members ← Walked.atKey field.name
      (fun value => some <$> walker.walkField enter message field value) members
    walker.walkPlainFields enter message rest members

/-- Walks the groups of a message in the order of their declaration. -/
def walkGroups (walker : Walker) (enter : Enter) (message : Message) :
    List String → List (String × Tree) → Walked (List (String × Tree))
  | [], members => pure members
  | group :: rest, members => do
    let members ← Walked.atKey group (walker.walkGroup enter message group) members
    walker.walkGroups enter message rest members

/-- Walks the members of a message: first the unknown keys, then the plain fields, and the groups at
the end. -/
def walkMembers (walker : Walker) (enter : Enter) (message : Message)
    (members : List (String × Tree)) : Walked (List (String × Tree)) := do
  let members ← walker.walkPlainFields enter message message.plainFields
    (walker.settleUnknown message members)
  walker.walkGroups enter message message.groups members

/-- Walks a message whose lists and objects lie no deeper inside each other than the bound. What
lies deeper is taken out. The owner is the field that holds the message, if there is one. -/
def walkWithin (walker : Walker) : Nat → Message → Option Field → Tree → Walked Tree
  | bound, message, owner, value =>
    match value with
    | .object members =>
      match bound with
      | 0 => pure .stripped
      | bound + 1 =>
        Tree.object <$> walker.walkMembers
          (fun nested field value => walker.walkWithin bound nested (some field) value)
          message members
    | other => walker.misshapen message.name ((owner.map Field.name).getD "") .object other

/-- Walks a message. -/
def walkMessage (walker : Walker) (message : Message) (owner : Option Field) (value : Tree) :
    Walked Tree :=
  walker.walkWithin value.depth message owner value

/-- Walks a tree as a message of the type referred to. -/
def walkRoot (walker : Walker) (reference : String) (tree : Tree) : Walked Tree :=
  match walker.registry.get? reference with
  | none => walker.fallBack (.unknownType reference) tree
  | some message =>
    if walker.skips message then pure tree else walker.walkMessage message none tree

end Walker

end Redaction

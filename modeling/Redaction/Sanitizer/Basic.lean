import Redaction.Sanitizer.Record
import Redaction.Walk.Walker

/-!
# Sanitizing

A configuration, the known message types and the additional names of one call determine how a
message is rendered. The rendering never fails: a message without a tree is rendered as the reason
for that.
-/

namespace Redaction

/-- A result together with the events on the way to it, in order. -/
structure Sanitized (α : Type) where
  /-- The result. -/
  result : α
  /-- The events. -/
  events : List Event
deriving DecidableEq

/-- A message as it is handed over: the name of its type, the types that its own type leads to, and
its data. -/
structure TypedMessage where
  /-- The name of the type. -/
  typeName : String
  /-- The types that belong to the message. -/
  registry : Schema.Registry
  /-- The content. -/
  data : Serial.Data

namespace Config

/-- The redacted tree of a tree that holds a message of the type referred to. -/
def redactTree (config : Config) (registry : Schema.Registry) (additional : AdditionalNames)
    (reference : String) (tree : Tree) : Sanitized Tree :=
  let walked := (Walker.ofConfig registry config additional).walkRoot reference tree
  ⟨walked.value, walked.problems.map fun problem => .fellBack problem config.fallback⟩

/-- The rendering of a tree. -/
def render (config : Config) (tree : Tree) : String := tree.render config.style config.marker

/-- The rendering of a document that holds a message of the type referred to. -/
def sanitizeDocument (config : Config) (registry : Schema.Registry)
    (additional : AdditionalNames) (reference : String) (document : Json) : Sanitized String :=
  let redacted := config.redactTree registry additional reference (.ofJson document)
  ⟨config.render redacted.result, redacted.events⟩

/-- The redacted tree of a message. -/
def redact (config : Config) (additional : AdditionalNames) (message : TypedMessage) :
    Except SerializeFailure (Sanitized Tree) :=
  match message.data.toTree with
  | .ok tree => .ok (config.redactTree message.registry additional message.typeName tree)
  | .error obstacle => .error ⟨message.typeName, obstacle⟩

/-- The text in the place of a message without a tree. -/
def failureText (failure : SerializeFailure) : String := "<<" ++ failure.message ++ ">>"

/-- The rendering of a message. -/
def sanitize (config : Config) (additional : AdditionalNames) (message : TypedMessage) :
    Sanitized String :=
  match config.redact additional message with
  | .ok redacted => ⟨config.render redacted.result, redacted.events⟩
  | .error failure => ⟨failureText failure, [.notSerialized failure]⟩

/-- The redacted message as a document, whatever the style of renderings. -/
def sanitizeToJson (config : Config) (additional : AdditionalNames) (message : TypedMessage) :
    Sanitized Json :=
  match config.redact additional message with
  | .ok redacted => ⟨redacted.result.toJson config.marker, redacted.events⟩
  | .error failure => ⟨.string (failureText failure), [.notSerialized failure]⟩

end Config

end Redaction

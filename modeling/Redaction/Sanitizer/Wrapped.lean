import Redaction.Sanitizer.Basic

/-!
# Messages wrapped for printing

A message is wrapped together with the configuration under which it will be printed. Nothing is
computed until the wrapped message is printed or handed to a log, and every time it is sanitized
anew.
-/

namespace Redaction

/-- A message that prints without its secrets. -/
structure Wrapped where
  /-- The configuration. -/
  config : Config
  /-- The message. -/
  message : TypedMessage
  /-- The additional names of this printing. -/
  additional : AdditionalNames := .empty

/-- What a log gets as the value of a key. -/
inductive Emission where
  /-- A text to be printed. -/
  | arguments (text : String)
  /-- A document to be stored as it is. -/
  | nested (document : Json)

/-- The message wrapped under a configuration. -/
def Config.strip (config : Config) (message : TypedMessage) : Wrapped := { config, message }

/-- The message wrapped under the default configuration. -/
def stripSecrets (message : TypedMessage) : Wrapped := Config.strip {} message

/-- The message wrapped for the time when secrets could only be told by the end of their names. -/
def stripLegacySecrets (message : TypedMessage) : Wrapped := Config.legacyNames.strip message

namespace Wrapped

/-- The wrapped message with more additional names. -/
def withAdditional (wrapped : Wrapped) (names : List String) : Wrapped :=
  { wrapped with additional := wrapped.additional.insertAll names }

/-- The printed form. All ways of printing give the same text, those for debugging included. -/
def text (wrapped : Wrapped) : Sanitized String :=
  wrapped.config.sanitize wrapped.additional wrapped.message

/-- The message as a document. -/
def json (wrapped : Wrapped) : Sanitized Json :=
  wrapped.config.sanitizeToJson wrapped.additional wrapped.message

/-- The value for a log: the printed form. -/
def emit (wrapped : Wrapped) : Sanitized Emission :=
  let printed := wrapped.text
  ⟨.arguments printed.result, printed.events⟩

/-- The value for a log that stores documents. -/
def emitJson (wrapped : Wrapped) : Sanitized Emission :=
  let document := wrapped.json
  ⟨.nested document.result, document.events⟩

end Wrapped

end Redaction

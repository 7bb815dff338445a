import Redaction.Config.Basic
import Redaction.Serial.Document
import Redaction.Walk.Problem

/-!
# Log records

What happens while a message is sanitized is never reported to the caller, whose rendering always
succeeds. It goes to the log instead: one record for every problem of the walk, or one for a message
that could not be turned into a tree.
-/

namespace Redaction

/-- A message of the type named could not be turned into a tree. -/
structure SerializeFailure where
  /-- The name of the message type. -/
  typeName : String
  /-- What stood in the way. -/
  obstacle : Serial.Obstacle
deriving DecidableEq, Repr

/-- The wording of a failure. -/
def SerializeFailure.message (failure : SerializeFailure) : String :=
  "serialize " ++ failure.typeName ++ ": " ++ failure.obstacle.message

/-- Something that is reported. -/
inductive Event where
  /-- A value did not fit the schema, and the fallback was applied to it. -/
  | fellBack (problem : Problem) (fallback : Fallback)
  /-- A message had no tree. -/
  | notSerialized (failure : SerializeFailure)
deriving DecidableEq, Repr

/-- The word for a fallback in the log. -/
def Fallback.logWord : Fallback → String
  | .strip => "Strip"
  | .passthrough => "Passthrough"

/-- A record of the log. -/
structure Record where
  /-- What happened. -/
  message : String
  /-- The details, as pairs of a name and a text. -/
  details : List (String × String)
deriving DecidableEq, Repr

/-- The name under which the sanitizer writes its records. -/
def logComponent : String := "protosanitizer"

/-- The record of an event. -/
def Event.record : Event → Record
  | .fellBack problem fallback =>
    { message := "sanitizer fell back"
      details := [("error", problem.message), ("fallback", fallback.logWord),
        ("component", logComponent)] }
  | .notSerialized failure =>
    { message := "message could not be serialized"
      details := [("error", failure.message), ("component", logComponent)] }

end Redaction

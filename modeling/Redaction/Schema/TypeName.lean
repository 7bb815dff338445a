/-!
# Names of message types

A message type is known by its full name. References to it may carry one leading dot, which means
that the name is complete; the dot is no part of the name.
-/

namespace Redaction.Schema

/-- A name without its leading dot, if it has one; of several dots only the first goes. -/
def withoutDot (name : String) : String :=
  match name.toList with
  | '.' :: rest => String.ofList rest
  | _ => name

end Redaction.Schema

import Redaction.Policy.Basic
import Redaction.Schema.Reach

/-!
# Types that hold nothing secret

A type is cleared under a policy if none of the fields to which it leads is secret and all the types
to which it leads are known. As long as unknown data is kept, messages of cleared types can be left
alone.
-/

namespace Redaction.Schema.Registry

/-- Whether a message of the type referred to might hold something secret. An unknown type might. -/
def mayContainSensitive (registry : Registry) (policy : Policy) (reference : String) : Bool :=
  match registry.get? reference with
  | none => true
  | some message =>
    let reach := registry.reach message.name
    reach.marked || reach.unresolved || reach.names.any policy.matchesName

/-- The names of the types whose messages hold nothing secret. -/
def cleared (registry : Registry) (policy : Policy) : List String :=
  registry.names.filter fun name => !registry.mayContainSensitive policy name

end Redaction.Schema.Registry

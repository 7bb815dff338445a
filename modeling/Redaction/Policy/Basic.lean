import Redaction.Policy.AdditionalNames
import Redaction.Schema.Field

/-!
# Which fields are secret

Whether a field is secret depends on the field alone and never on its value: on its mark, and on its
name, which may be one of the additional names or end in the suffix of an older naming convention.
-/

namespace Redaction

/-- The rules by which fields are secret without being marked. -/
structure Policy where
  /-- The suffix that makes a name secret, if there is one. -/
  suffix : Option String
  /-- The names that are secret in any case. -/
  additional : AdditionalNames
deriving DecidableEq

namespace Policy

/-- Whether a name ends in a suffix. -/
def endsIn (name suffix : String) : Bool := suffix.toList.isSuffixOf name.toList

/-- Whether a name makes its field secret. -/
def matchesName (policy : Policy) (name : String) : Bool :=
  policy.additional.contains name || policy.suffix.any (endsIn name)

/-- Whether a field is secret. -/
def isSensitive (policy : Policy) (field : Schema.Field) : Bool :=
  field.sensitive || policy.matchesName field.name

end Policy

end Redaction

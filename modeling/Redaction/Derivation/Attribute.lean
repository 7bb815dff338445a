/-!
# Attributes

Declarations carry attributes. One that concerns the schema is a list of options; each option is a
path, perhaps followed by a value or by arguments.
-/

namespace Redaction.Derivation

/-- A literal. -/
inductive Literal where
  /-- A text. -/
  | text (value : String)
  /-- A number, as it is written. -/
  | number (written : String)
  /-- A truth value. -/
  | truth (value : Bool)
deriving DecidableEq, Repr

mutual

/-- An element of a list of options. -/
inductive Meta where
  /-- A path and what follows it. -/
  | option (path : List String) (tail : MetaTail)
  /-- A bare literal. -/
  | literal (value : Literal)

/-- What follows the path of an option. -/
inductive MetaTail where
  /-- Nothing. -/
  | nothing
  /-- An equals sign and a value. -/
  | value (value : Literal)
  /-- Arguments between parentheses. -/
  | arguments (items : List Meta)

end

/-- The content of an attribute. -/
inductive AttributeBody where
  /-- A list of options. -/
  | options (items : List Meta)
  /-- A value behind an equals sign. -/
  | value (value : Literal)
  /-- Nothing. -/
  | bare

/-- An attribute. -/
structure Attribute where
  /-- The path before the content. -/
  path : List String
  /-- The content. -/
  body : AttributeBody

/-- Whether an attribute concerns the schema. Only the path `proto` does, written as one name. -/
def Attribute.concernsSchema (attr : Attribute) : Bool := attr.path == ["proto"]

end Redaction.Derivation

import Redaction.Tree.Basic

/-!
# Problems that a walk meets

A problem is a place where the data does not fit the schema. It names types, fields and shapes, and
never a value or a key of the data.
-/

namespace Redaction

/-- The outermost form of a tree. -/
inductive Shape where
  /-- The value `null`. -/
  | null
  /-- A truth value. -/
  | bool
  /-- A number. -/
  | number
  /-- A text. -/
  | string
  /-- A list. -/
  | list
  /-- An object. -/
  | object
  /-- A value that has been taken out. -/
  | stripped
deriving DecidableEq, Repr

/-- The shape of a tree. -/
def Tree.shape : Tree → Shape
  | .null => .null
  | .bool _ => .bool
  | .number _ => .number
  | .string _ => .string
  | .list _ => .list
  | .object _ => .object
  | .stripped => .stripped

/-- The word for a shape. -/
def Shape.word : Shape → String
  | .null => "null"
  | .bool => "bool"
  | .number => "number"
  | .string => "string"
  | .list => "list"
  | .object => "object"
  | .stripped => "stripped"

/-- What a field needs as its value. -/
inductive Expectation where
  /-- A message. -/
  | object
  /-- A list of messages. -/
  | list
  /-- An object with messages as its values. -/
  | map
deriving DecidableEq, Repr

/-- The word for what a field needs. -/
def Expectation.word : Expectation → String
  | .object => "object"
  | .list => "list"
  | .map => "map"

/-- What stands in the place of a group that is not an object with one alternative. -/
inductive GroupFlaw where
  /-- An object without an alternative. -/
  | noAlternative
  /-- An object with more than one alternative. -/
  | severalAlternatives
  /-- No object at all. -/
  | shape (found : Shape)
deriving DecidableEq, Repr

/-- The words for what stands in the place of a group. -/
def GroupFlaw.words : GroupFlaw → String
  | .noAlternative => "no alternative"
  | .severalAlternatives => "several alternatives"
  | .shape found => found.word

/-- A place where the data does not fit the schema. -/
inductive Problem where
  /-- A reference means no known type. -/
  | unknownType (typeName : String)
  /-- A group is not an object with exactly one alternative. -/
  | malformedOneof (message group : String) (found : GroupFlaw)
  /-- A value does not have the shape that its field needs. The field is empty where the value is a
  whole message that belongs to no field. -/
  | unexpectedShape (message field : String) (expected : Expectation) (found : Shape)
deriving DecidableEq, Repr

/-- The wording of a problem. -/
def Problem.message : Problem → String
  | .unknownType typeName => typeName ++ ": unknown type"
  | .malformedOneof message group found =>
    message ++ "." ++ group ++ ": malformed oneof (" ++ found.words ++ ")"
  | .unexpectedShape message field expected found =>
    message ++ "." ++ field ++ ": expected " ++ expected.word ++ ", found " ++ found.word

end Redaction

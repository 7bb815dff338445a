import Redaction.Json.Basic
import Redaction.Text.Joined
import Redaction.Text.Quoted

/-!
# The compact text of a document

A document is written on one line, without blanks and with the members in the order of their keys.
-/

namespace Redaction.Json

/-- The text of a truth value. -/
def boolText (value : Bool) : List Char := if value then "true".toList else "false".toList

mutual

/-- The characters of a document. -/
def chars : Json → List Char
  | .null => "null".toList
  | .bool value => boolText value
  | .number value => value.text
  | .string value => Text.jsonQuoted value
  | .array items => '[' :: Text.joined ',' (itemChars items) ++ [']']
  | .object members => '\x7b' :: Text.joined ',' (memberChars members) ++ ['\x7d']

/-- The characters of each item of a list. -/
def itemChars : List Json → List (List Char)
  | [] => []
  | item :: rest => item.chars :: itemChars rest

/-- The characters of each member of an object. -/
def memberChars : List (String × Json) → List (List Char)
  | [] => []
  | (key, value) :: rest => (Text.jsonQuoted key ++ ':' :: value.chars) :: memberChars rest

end

/-- The text of a document. -/
def text (document : Json) : String := String.ofList document.chars

end Redaction.Json

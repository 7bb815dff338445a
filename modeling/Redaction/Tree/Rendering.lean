import Redaction.Json.Writer
import Redaction.Tree.Basic

/-!
# The two renderings of a tree

A tree is rendered on one line, either as JSON or in a compact bracketed form. What has been taken
out shows as a marker: a quoted text in JSON, the bare marker in the compact form.
-/

namespace Redaction

/-- The forms in which a tree can be rendered. -/
inductive Style where
  /-- JSON without blanks. -/
  | json
  /-- Angle brackets around objects and square brackets around lists, with blanks between elements
  and with quotes only around those keys that are not plain names. -/
  | compact
deriving DecidableEq, Repr

namespace Tree

mutual

/-- The JSON form of a tree. -/
def jsonChars (marker : String) : Tree → List Char
  | .null => "null".toList
  | .bool value => Json.boolText value
  | .number value => value.text
  | .string value => Text.jsonQuoted value
  | .stripped => Text.jsonQuoted marker
  | .list items => '[' :: Text.joined ',' (jsonItems marker items) ++ [']']
  | .object members => '\x7b' :: Text.joined ',' (jsonMembers marker members) ++ ['\x7d']

/-- The JSON forms of the items of a list. -/
def jsonItems (marker : String) : List Tree → List (List Char)
  | [] => []
  | item :: rest => item.jsonChars marker :: jsonItems marker rest

/-- The JSON forms of the members of an object. -/
def jsonMembers (marker : String) : List (String × Tree) → List (List Char)
  | [] => []
  | (key, value) :: rest =>
    (Text.jsonQuoted key ++ ':' :: value.jsonChars marker) :: jsonMembers marker rest

end

/-- Whether a key is a plain name: an ASCII letter followed by ASCII letters, digits and
underscores. -/
def isPlainName (key : String) : Bool :=
  match key.toList with
  | [] => false
  | first :: rest => first.isAlpha && rest.all fun c => c.isAlphanum || c = '_'

/-- A key in the compact form. -/
def compactKey (key : String) : List Char :=
  if isPlainName key then key.toList else Text.visiblyQuoted key

mutual

/-- The compact form of a tree. -/
def compactChars (marker : String) : Tree → List Char
  | .null => "null".toList
  | .bool value => Json.boolText value
  | .number value => value.text
  | .string value => Text.visiblyQuoted value
  | .stripped => marker.toList
  | .list items => '[' :: Text.joined ' ' (compactItems marker items) ++ [']']
  | .object members => '<' :: Text.joined ' ' (compactMembers marker members) ++ ['>']

/-- The compact forms of the items of a list. -/
def compactItems (marker : String) : List Tree → List (List Char)
  | [] => []
  | item :: rest => item.compactChars marker :: compactItems marker rest

/-- The compact forms of the members of an object. -/
def compactMembers (marker : String) : List (String × Tree) → List (List Char)
  | [] => []
  | (key, value) :: rest =>
    (compactKey key ++ ':' :: value.compactChars marker) :: compactMembers marker rest

end

/-- The characters of a tree in a style. -/
def chars (style : Style) (marker : String) (tree : Tree) : List Char :=
  match style with
  | .json => tree.jsonChars marker
  | .compact => tree.compactChars marker

/-- The rendering of a tree in a style. -/
def render (style : Style) (marker : String) (tree : Tree) : String :=
  String.ofList (tree.chars style marker)

end Tree

end Redaction

import Redaction.Text.LowerCase
import Redaction.Text.Uppercase

/-!
# Names of alternatives

A variant without a name of its own is known by its name in lower case, with underscores between the
words.
-/

namespace Redaction.Derivation

/-- The characters of a name in lower case, an underscore in front of each upper-case character
that is not the first of the name. -/
def snakeChars : Bool → List Char → List Char
  | _, [] => []
  | first, c :: rest =>
    (if Text.isUppercase c then (if first then [] else ['_']) ++ Text.lowerChar c else [c])
      ++ snakeChars false rest

/-- A name in lower case with underscores between its words. -/
def snakeCase (name : String) : String := String.ofList (snakeChars true name.toList)

end Redaction.Derivation

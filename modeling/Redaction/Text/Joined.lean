/-!
# Joining texts

Lists and objects are written as the texts of their elements with a separator between neighbours.
-/

namespace Redaction.Text

/-- The texts one after the other, with a separator between each two. -/
def joined (separator : Char) : List (List Char) → List Char
  | [] => []
  | [text] => text
  | text :: next :: rest => text ++ separator :: joined separator (next :: rest)

end Redaction.Text

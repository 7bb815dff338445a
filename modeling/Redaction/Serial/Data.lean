import Redaction.Json.Basic
import Redaction.Number.Extended

/-!
# Data of programs

The values that programs hand over to be turned into documents. They are richer than documents:
there are several kinds of absence, of records and of labelled alternatives, keys of maps may be any
value, and a value may refuse to be turned into anything.
-/

namespace Redaction.Serial

/-- A value of a program. -/
inductive Data where
  /-- A value that already is a document. -/
  | json (value : Json)
  /-- A whole number of any width. -/
  | integer (value : Int)
  /-- A single-precision float. -/
  | single (value : Number.Extended Number.binary32)
  /-- A double-precision float. -/
  | double (value : Number.Extended Number.binary64)
  /-- A single character. -/
  | character (value : Char)
  /-- A byte string. -/
  | bytes (value : List UInt8)
  /-- An absent value or a value without content. -/
  | nothing
  /-- A value that might have been absent. -/
  | present (value : Data)
  /-- A record that wraps one value and has no fields. -/
  | wrapper (value : Data)
  /-- A list of values. -/
  | sequence (items : List Data)
  /-- A map. -/
  | map (entries : List (Data × Data))
  /-- A record with named fields. -/
  | record (fields : List (String × Data))
  /-- An alternative that is a mere label. -/
  | label (name : String)
  /-- An alternative with one value. -/
  | labelled (name : String) (value : Data)
  /-- An alternative with a list of values. -/
  | labelledSequence (name : String) (items : List Data)
  /-- An alternative with named fields. -/
  | labelledRecord (name : String) (fields : List (String × Data))
  /-- A value that refuses. -/
  | refusal (reason : String)

end Redaction.Serial

import Redaction.Number.Text

/-!
# Numbers of a document

A number is a whole number that fits a 64-bit word, signed or unsigned, or a double-precision float.
The two kinds stay apart: `1` and `1.0` are different numbers and are written differently.
-/

namespace Redaction

/-- A whole number that fits a signed or an unsigned 64-bit word. -/
structure WordInteger where
  /-- The number. -/
  value : Int
  /-- Signed words start at `-2 ^ 63`. -/
  lower : -9223372036854775808 ≤ value
  /-- Unsigned words end below `2 ^ 64`. -/
  upper : value < 18446744073709551616
deriving DecidableEq

/-- The whole number as a word, if it fits one. -/
def WordInteger.ofInt? (n : Int) : Option WordInteger :=
  if h : -9223372036854775808 ≤ n ∧ n < 18446744073709551616 then some ⟨n, h.1, h.2⟩ else none

/-- A number of a document. -/
inductive Number where
  /-- A whole number. -/
  | integer (n : WordInteger)
  /-- A float, whole or not. -/
  | float (x : Number.Binary Number.binary64)
deriving DecidableEq

namespace Number

/-- The text of a number. -/
def text : Number → List Char
  | .integer n => integerText n.value
  | .float x => x.text doubleLayout

end Number

end Redaction

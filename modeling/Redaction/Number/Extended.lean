import Redaction.Number.Literal

/-!
# Floats with infinities

A float as a program holds it may also be infinite or not a number at all. It is written in decimal
or as one of the words for those values, and reading it rounds once, to the nearest value.
-/

namespace Redaction.Number

/-- A value of a floating-point format, finite or not. -/
inductive Extended (format : BinaryFormat) where
  /-- A finite value. -/
  | finite (x : Binary format)
  /-- One of the two infinities. -/
  | infinite (negative : Bool)
  /-- No number. -/
  | notANumber
deriving DecidableEq

namespace Extended

/-- The value nearest to a decimal, infinite where it exceeds the format. -/
def ofDecimal (format : BinaryFormat) (negative : Bool) (decimal : Decimal) : Extended format :=
  match Binary.ofDecimal? format negative decimal.digits decimal.exponent with
  | some x => .finite x
  | none => .infinite negative

/-- The decimal that a whole text writes: digits with an optional point among them, and an optional
exponent. -/
def readDecimal? (text : List Char) : Option Decimal := do
  let (whole, rest) := spanDigits text
  let (fraction, rest) := match rest with
    | '.' :: rest => spanDigits rest
    | rest => ([], rest)
  if whole.isEmpty && fraction.isEmpty then none
  else
    match readExponent rest with
    | .ok (exponent, []) =>
      some ⟨ofDigits (whole ++ fraction), exponent.getD 0 - fraction.length⟩
    | _ => none

/-- The value that a text without a sign writes. -/
def readUnsigned? (format : BinaryFormat) (negative : Bool) (text : List Char) :
    Option (Extended format) :=
  let word := text.map Char.toLower
  if word = "nan".toList then some .notANumber
  else if word = "inf".toList ∨ word = "infinity".toList then some (.infinite negative)
  else (readDecimal? text).map (ofDecimal format negative)

/-- The value that a text writes. -/
def read? (format : BinaryFormat) (text : List Char) : Option (Extended format) :=
  match text with
  | '-' :: rest => readUnsigned? format true rest
  | '+' :: rest => readUnsigned? format false rest
  | text => readUnsigned? format false text

end Extended

end Redaction.Number

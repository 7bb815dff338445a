import Redaction.Number.Shortest

/-!
# The text of a number

Whole numbers are written in decimal. Floats are written with their shortest digits, with all places
spelled out while the leading digit is not too far from the point, and in exponent form otherwise.
-/

namespace Redaction.Number

/-- The decimal digits of a natural number. -/
def naturalText (n : Nat) : List Char := Nat.toDigits 10 n

/-- The decimal text of a whole number. -/
def integerText (n : Int) : List Char :=
  if n < 0 then '-' :: naturalText n.natAbs else naturalText n.natAbs

/-- Between which decimal exponents of the leading digit a float is written in full. -/
structure DecimalLayout where
  /-- The smallest exponent written in full. -/
  minPositional : Int
  /-- The largest exponent written in full. -/
  maxPositional : Int
deriving DecidableEq, Repr

/-- Double-precision values are written in full from `0.00001` to below `1e+16`. -/
def doubleLayout : DecimalLayout := ⟨-5, 15⟩

/-- Single-precision values are written in full from `0.000001` to below `1e+13`. -/
def singleLayout : DecimalLayout := ⟨-6, 12⟩

namespace Decimal

/-- The exponent of the leading digit. -/
def leadingExponent (decimal : Decimal) : Int :=
  (naturalText decimal.digits).length - 1 + decimal.exponent

/-- Every place from the leading digit to the last one, with at least one on either side of the
point. -/
def positionalText (decimal : Decimal) : List Char :=
  let digits := naturalText decimal.digits
  let leading := decimal.leadingExponent
  if leading < 0 then '0' :: '.' :: (List.replicate (-leading - 1).toNat '0' ++ digits)
  else
    let whole := leading.toNat + 1
    if digits.length ≤ whole then
      digits ++ List.replicate (whole - digits.length) '0' ++ ['.', '0']
    else digits.take whole ++ '.' :: digits.drop whole

/-- One digit before the point, the others, if any, behind it, and the exponent with its sign. -/
def exponentText (decimal : Decimal) : List Char :=
  let leading := decimal.leadingExponent
  let fraction := match naturalText decimal.digits with
    | first :: second :: rest => first :: '.' :: second :: rest
    | digits => digits
  fraction ++ 'e' :: (if leading < 0 then '-' else '+') :: naturalText leading.natAbs

/-- The text of a decimal in a layout. -/
def text (layout : DecimalLayout) (decimal : Decimal) : List Char :=
  if layout.minPositional ≤ decimal.leadingExponent
      ∧ decimal.leadingExponent ≤ layout.maxPositional then decimal.positionalText
  else decimal.exponentText

end Decimal

/-- The text of a float: its sign and its shortest digits in a layout. -/
def Binary.text {format : BinaryFormat} (layout : DecimalLayout) (x : Binary format) : List Char :=
  if x.negative then '-' :: x.shortest.text layout else x.shortest.text layout

end Redaction.Number

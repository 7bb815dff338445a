import Redaction.Number.Basic

/-!
# Numbers as they are written in a document

A literal has a whole part, perhaps a fraction and perhaps an exponent. Without the last two it is
a whole number as long as it fits a 64-bit word; every other literal is a float. The significand of
a float is gathered from the digits in a 64-bit word: whole digits that no longer fit only raise the
exponent, fraction digits that no longer fit are dropped. The significand and the power of ten are
then each rounded to a float, and their product or quotient is rounded once more.
-/

namespace Redaction.Number

/-- Why a text does not begin with a number. -/
inductive LiteralFault where
  /-- A digit is missing, or a leading zero is followed by another digit. -/
  | malformed
  /-- The text ends where a digit has to follow. -/
  | endOfText
  /-- The number is too large for a float. -/
  | outOfRange
deriving DecidableEq, Repr

/-- The parts of a literal. -/
structure Literal where
  /-- Whether a minus sign stands in front. -/
  negative : Bool
  /-- The digits before the point. -/
  whole : List Nat
  /-- The digits behind the point, if there is a point. -/
  fraction : Option (List Nat)
  /-- The exponent, if there is one. -/
  exponent : Option Int
deriving DecidableEq, Repr

/-- The value of a decimal digit. -/
def digit? (c : Char) : Option Nat :=
  if '0' ≤ c ∧ c ≤ '9' then some (c.toNat - '0'.toNat) else none

/-- The digits at the beginning of a text, and the rest of it. -/
def spanDigits : List Char → List Nat × List Char
  | [] => ([], [])
  | c :: rest =>
    match digit? c with
    | none => ([], c :: rest)
    | some d => (d :: (spanDigits rest).1, (spanDigits rest).2)

/-- The digits at the beginning of a text, of which there has to be at least one. -/
def someDigits (text : List Char) : Except LiteralFault (List Nat × List Char) :=
  match spanDigits text with
  | ([], []) => .error .endOfText
  | ([], _ :: _) => .error .malformed
  | (digits, rest) => .ok (digits, rest)

/-- The whole number that a row of digits writes. -/
def ofDigits (digits : List Nat) : Nat := digits.foldl (fun n d => 10 * n + d) 0

/-- The whole part: one zero, or digits of which the first is not zero. -/
def readWhole (text : List Char) : Except LiteralFault (List Nat × List Char) := do
  match ← someDigits text with
  | (0 :: _ :: _, _) => .error .malformed
  | (digits, rest) => .ok (digits, rest)

/-- The fraction, which a point announces. -/
def readFraction : List Char → Except LiteralFault (Option (List Nat) × List Char)
  | '.' :: rest => do
    let (digits, rest) ← someDigits rest
    .ok (some digits, rest)
  | text => .ok (none, text)

/-- The exponent, which a letter announces and which may carry a sign. -/
def readExponent : List Char → Except LiteralFault (Option Int × List Char)
  | c :: rest =>
    if c = 'e' ∨ c = 'E' then
      match rest with
      | '-' :: rest => do
        let (digits, rest) ← someDigits rest
        .ok (some (-(ofDigits digits : Int)), rest)
      | '+' :: rest => do
        let (digits, rest) ← someDigits rest
        .ok (some (ofDigits digits : Int), rest)
      | rest => do
        let (digits, rest) ← someDigits rest
        .ok (some (ofDigits digits : Int), rest)
    else .ok (none, c :: rest)
  | [] => .ok (none, [])

/-- The literal at the beginning of a text, and the rest of it. -/
def readLiteral (text : List Char) : Except LiteralFault (Literal × List Char) := do
  let (negative, text) := match text with
    | '-' :: rest => (true, rest)
    | text => (false, text)
  let (whole, text) ← readWhole text
  let (fraction, text) ← readFraction text
  let (exponent, text) ← readExponent text
  .ok (⟨negative, whole, fraction, exponent⟩, text)

/-- A significand that is being gathered in a 64-bit word. -/
structure Gathered where
  /-- The digits gathered so far, as a whole number. -/
  significand : Nat
  /-- How many digits could not be gathered any more. -/
  surplus : Nat
  /-- How many digits were gathered. -/
  taken : Nat
deriving DecidableEq, Repr

/-- Takes digits for as long as the whole number fits an unsigned 64-bit word; from the first one
that does not fit on, all are surplus. -/
def gather (significand : Nat) : List Nat → Gathered
  | [] => ⟨significand, 0, 0⟩
  | d :: rest =>
    if 10 * significand + d < UInt64.size then
      let later := gather (10 * significand + d) rest
      { later with taken := later.taken + 1 }
    else ⟨significand, rest.length + 1, 0⟩

/-- The float nearest to a natural number below `2 ^ 64`. -/
def ofNatural? (n : Nat) : Option (Binary binary64) := Binary.ofFraction? binary64 false n 1

/-- The float nearest to a power of ten. -/
def powerOfTen? (exponent : Nat) : Option (Binary binary64) :=
  Binary.ofDecimal? binary64 false 1 exponent

/-- A float times a power of ten. Powers beyond `10 ^ 308` are no floats: a positive one leaves only
zero in range, and a negative one is taken in two steps, of which the first is `10 ^ 308`; what two
such steps cannot reach is zero. -/
def scale? (x : Binary binary64) (exponent : Int) : Option (Binary binary64) :=
  if x.isZero then some x
  else if 308 < exponent then none
  else if 0 ≤ exponent then do x.mul? (← powerOfTen? exponent.toNat)
  else if -308 ≤ exponent then do x.div? (← powerOfTen? (-exponent).toNat)
  else if -616 ≤ exponent then do
    let first ← x.div? (← powerOfTen? 308)
    first.div? (← powerOfTen? (-exponent - 308).toNat)
  else ofNatural? 0

/-- The float that a literal denotes; none where it is out of range. -/
def Literal.float? (literal : Literal) : Option (Binary binary64) := do
  let whole := gather 0 literal.whole
  let all := gather whole.significand (literal.fraction.getD [])
  let exponent : Int := whole.surplus - all.taken + literal.exponent.getD 0
  let magnitude ← scale? (← ofNatural? all.significand) exponent
  some (magnitude.withSign literal.negative)

/-- The whole number that a literal denotes, if it is one that fits a 64-bit word. There is no
negative zero among the whole numbers. -/
def Literal.integer? (literal : Literal) : Option WordInteger :=
  match literal.fraction, literal.exponent with
  | none, none =>
    let magnitude := ofDigits literal.whole
    if literal.negative then
      if magnitude = 0 then none else WordInteger.ofInt? (-magnitude)
    else WordInteger.ofInt? magnitude
  | _, _ => none

/-- The number that a literal denotes. -/
def Literal.number (literal : Literal) : Except LiteralFault Number :=
  match literal.integer? with
  | some n => .ok (.integer n)
  | none =>
    match literal.float? with
    | some x => .ok (.float x)
    | none => .error .outOfRange

/-- The number at the beginning of a text, and the rest of it. -/
def read (text : List Char) : Except LiteralFault (Number × List Char) := do
  let (literal, rest) ← readLiteral text
  .ok (← literal.number, rest)

end Redaction.Number

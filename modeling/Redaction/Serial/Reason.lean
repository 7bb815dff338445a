import Redaction.Number.Literal

/-!
# Reasons that end in a position

The reason of a refusal is any text. If it ends in a position, written ` at line L column C`, the
position counts as one: its numbers are written without leading zeros, and a position in line zero
is no position and is left out.
-/

namespace Redaction.Serial.Reason

/-- The parts of a text before and behind the last occurrence of a mark. -/
def splitLast? (mark : List Char) : List Char → Option (List Char × List Char)
  | [] => none
  | c :: rest =>
    match splitLast? mark rest with
    | some (before, behind) => some (c :: before, behind)
    | none => (mark.isPrefixOf? (c :: rest)).map fun behind => ([], behind)

/-- The number at the beginning of a text, which has to fit an unsigned 64-bit word, and the rest of
the text. -/
def readWord? (text : List Char) : Option (Nat × List Char) :=
  match Number.spanDigits text with
  | ([], _) => none
  | (digits, rest) =>
    let number := Number.ofDigits digits
    if number < UInt64.size then some (number, rest) else none

/-- The words in front of the line of a position. -/
def lineMark : List Char := " at line ".toList

/-- The words in front of the column of a position. -/
def columnMark : List Char := " column ".toList

/-- A reason without the position at its end, the line and the column of the position. -/
def splitPosition? (reason : List Char) : Option (List Char × Nat × Nat) := do
  let (before, behind) ← splitLast? lineMark reason
  let (line, behind) ← readWord? behind
  match ← readWord? (← columnMark.isPrefixOf? behind) with
  | (column, []) => some (before, line, column)
  | (_, _ :: _) => none

/-- The text of a reason. -/
def chars (reason : List Char) : List Char :=
  match splitPosition? reason with
  | none => reason
  | some (before, 0, _) => before
  | some (before, line + 1, column) =>
    before ++ lineMark ++ Nat.toDigits 10 (line + 1) ++ columnMark ++ Nat.toDigits 10 column

/-- The text of a reason. -/
def text (reason : String) : String := String.ofList (chars reason.toList)

end Redaction.Serial.Reason

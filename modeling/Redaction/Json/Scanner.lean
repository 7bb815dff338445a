import Redaction.Number.Literal

/-!
# The lexical elements of a JSON text

Each function here takes one element off the beginning of a text and returns the rest, or says what
is wrong with the first character that does not fit.
-/

namespace Redaction.Json

/-- What can be wrong with the spelling of a JSON text. -/
inductive Fault where
  /-- The text ends where a value has to stand. -/
  | endInValue
  /-- The text ends inside a quoted text. -/
  | endInString
  /-- The text ends inside a list. -/
  | endInList
  /-- The text ends inside an object. -/
  | endInObject
  /-- No value begins here. -/
  | valueExpected
  /-- A word starts like `null`, `true` or `false` and goes on differently. -/
  | wordExpected
  /-- There is no colon behind a key. -/
  | colonExpected
  /-- Neither a comma nor a closing brace follows a member. -/
  | commaOrBraceExpected
  /-- Neither a comma nor a closing bracket follows an item. -/
  | commaOrBracketExpected
  /-- Nothing follows the last comma. -/
  | trailingComma
  /-- Something follows the value. -/
  | trailingCharacters
  /-- The key of a member is not a quoted text. -/
  | keyExpected
  /-- A number is spelled wrongly. -/
  | invalidNumber
  /-- A number is too large for a float. -/
  | numberOutOfRange
  /-- A backslash is followed by no known escape. -/
  | invalidEscape
  /-- An escaped surrogate lacks its other half, or is the wrong half. -/
  | loneSurrogate
  /-- No second escape follows an escaped leading surrogate. -/
  | surrogateCutOff
  /-- A control character stands inside a quoted text. -/
  | controlCharacter
deriving DecidableEq, Repr

/-- The wording of a fault. -/
def Fault.message : Fault → String
  | .endInValue => "EOF while parsing a value"
  | .endInString => "EOF while parsing a string"
  | .endInList => "EOF while parsing a list"
  | .endInObject => "EOF while parsing an object"
  | .valueExpected => "expected value"
  | .wordExpected => "expected ident"
  | .colonExpected => "expected `:`"
  | .commaOrBraceExpected => "expected `,` or `\x7d`"
  | .commaOrBracketExpected => "expected `,` or `]`"
  | .trailingComma => "trailing comma"
  | .trailingCharacters => "trailing characters"
  | .keyExpected => "key must be a string"
  | .invalidNumber => "invalid number"
  | .numberOutOfRange => "number out of range"
  | .invalidEscape => "invalid escape"
  | .loneSurrogate => "lone leading surrogate in hex escape"
  | .surrogateCutOff => "unexpected end of hex escape"
  | .controlCharacter => "control character (\\u0000-\\u001F) found while parsing a string"

/-- The characters that may stand between the elements of a text. -/
def isBlank (c : Char) : Bool := c = ' ' || c = '\n' || c = '\t' || c = '\r'

/-- The text from its first character that is not blank on. -/
def skipBlanks (text : List Char) : List Char := text.dropWhile isBlank

/-- The value of a hexadecimal digit of either case. -/
def hexDigit? (c : Char) : Option Nat :=
  if '0' ≤ c ∧ c ≤ '9' then some (c.toNat - '0'.toNat)
  else if 'a' ≤ c ∧ c ≤ 'f' then some (c.toNat - 'a'.toNat + 10)
  else if 'A' ≤ c ∧ c ≤ 'F' then some (c.toNat - 'A'.toNat + 10)
  else none

/-- The number written by four hexadecimal digits. -/
def hexNumber? (a b c d : Char) : Option Nat := do
  some (((← hexDigit? a) * 16 + (← hexDigit? b)) * 256 + (← hexDigit? c) * 16 + (← hexDigit? d))

/-- How many bytes a text takes in UTF-8. -/
def byteCount : List Char → Nat
  | [] => 0
  | c :: rest => c.utf8Size + byteCount rest

/-- The four hexadecimal digits of an escape. Fewer than four bytes mean that the text has ended,
whatever they are. -/
def readHex (text : List Char) : Except Fault (Nat × List Char) :=
  match text with
  | a :: b :: c :: d :: rest =>
    match hexNumber? a b c d with
    | some n => .ok (n, rest)
    | none => .error .invalidEscape
  | short => if byteCount short < 4 then .error .endInString else .error .invalidEscape

/-- Whether a number is the leading half of a surrogate pair. -/
def isLeadingSurrogate (n : Nat) : Bool := 0xD800 ≤ n && n ≤ 0xDBFF

/-- Whether a number is the trailing half of a surrogate pair. -/
def isTrailingSurrogate (n : Nat) : Bool := 0xDC00 ≤ n && n ≤ 0xDFFF

/-- The trailing half of a pair, which has to be an escape of its own. -/
def readTrailingSurrogate : List Char → Except Fault (Nat × List Char)
  | [] => .error .endInString
  | '\\' :: rest =>
    match rest with
    | [] => .error .endInString
    | 'u' :: rest => do
      let (n, rest) ← readHex rest
      if isTrailingSurrogate n then .ok (n, rest) else .error .loneSurrogate
    | _ :: _ => .error .surrogateCutOff
  | _ :: _ => .error .surrogateCutOff

/-- The character that hexadecimal digits stand for; two escapes form one character beyond the first
65536. -/
def readCodePoint (text : List Char) : Except Fault (Char × List Char) := do
  let (n, rest) ← readHex text
  if isTrailingSurrogate n then .error .loneSurrogate
  else if isLeadingSurrogate n then
    let (low, rest) ← readTrailingSurrogate rest
    .ok (Char.ofNat ((n - 0xD800) * 0x400 + (low - 0xDC00) + 0x10000), rest)
  else .ok (Char.ofNat n, rest)

/-- The character that stands behind a backslash for another one. -/
def shortEscape? (c : Char) : Option Char :=
  if c = '"' || c = '\\' || c = '/' then some c
  else if c = 'b' then some '\x08'
  else if c = 'f' then some '\x0c'
  else if c = 'n' then some '\n'
  else if c = 'r' then some '\r'
  else if c = 't' then some '\t'
  else none

/-- One character of a quoted text, which may be escaped. -/
def readCharacter : List Char → Except Fault (Char × List Char)
  | [] => .error .endInString
  | '\\' :: [] => .error .endInString
  | '\\' :: 'u' :: rest => readCodePoint rest
  | '\\' :: c :: rest =>
    match shortEscape? c with
    | some meant => .ok (meant, rest)
    | none => .error .invalidEscape
  | c :: rest => if c.toNat < 0x20 then .error .controlCharacter else .ok (c, rest)

/-- The characters up to the closing quote; each takes at least one character of the text, so that
the length of the text bounds their number. -/
def readCharacters : Nat → List Char → Except Fault (List Char × List Char)
  | 0, _ => .error .endInString
  | bound + 1, text =>
    match text with
    | '"' :: rest => .ok ([], rest)
    | text => do
      let (c, rest) ← readCharacter text
      let (later, rest) ← readCharacters bound rest
      .ok (c :: later, rest)

/-- The rest of a quoted text, behind its opening quote. -/
def readString (text : List Char) : Except Fault (String × List Char) := do
  let (chars, rest) ← readCharacters (text.length + 1) text
  .ok (String.ofList chars, rest)

/-- The rest of a word of which the first letter has been read. -/
def readWord : List Char → List Char → Except Fault (List Char)
  | [], text => .ok text
  | _ :: _, [] => .error .endInValue
  | expected :: word, c :: rest => if c = expected then readWord word rest else .error .wordExpected

/-- The fault that a misspelled number is. -/
def Fault.ofLiteral : Number.LiteralFault → Fault
  | .malformed => .invalidNumber
  | .endOfText => .endInValue
  | .outOfRange => .numberOutOfRange

/-- A number. -/
def readNumber (text : List Char) : Except Fault (Number × List Char) :=
  (Number.read text).mapError Fault.ofLiteral

end Redaction.Json

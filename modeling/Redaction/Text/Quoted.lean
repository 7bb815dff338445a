import Redaction.Text.DefaultIgnorable
import Redaction.Text.GraphemeExtend
import Redaction.Text.Unprintable

/-!
# Quoted texts

Two ways to put a text between double quotes. JSON quoting escapes the quote, the backslash and the
characters below U+0020. Visible quoting also escapes every character that would not show on its
own, so that what is between the quotes can be told by looking at it.
-/

namespace Redaction.Text

/-- The hexadecimal digit of a number below sixteen. -/
def hexDigit (n : Nat) : Char := Nat.digitChar n

/-- A character as it stands between JSON quotes. -/
def jsonEscape (c : Char) : List Char :=
  if c = '"' then ['\\', '"']
  else if c = '\\' then ['\\', '\\']
  else if c.toNat = 0x08 then ['\\', 'b']
  else if c = '\t' then ['\\', 't']
  else if c = '\n' then ['\\', 'n']
  else if c.toNat = 0x0C then ['\\', 'f']
  else if c = '\r' then ['\\', 'r']
  else if c.toNat < 0x20 then
    ['\\', 'u', '0', '0', hexDigit (c.toNat / 16), hexDigit (c.toNat % 16)]
  else [c]

/-- A text between JSON quotes. -/
def jsonQuoted (text : String) : List Char := '"' :: text.toList.flatMap jsonEscape ++ ['"']

/-- A code point in hexadecimal digits between braces. -/
def codePointEscape (c : Char) : List Char :=
  '\\' :: 'u' :: '\x7b' :: Nat.toDigits 16 c.toNat ++ ['\x7d']

/-- Whether a character is one of the halfwidth sound marks of katakana. They extend the letter
before them and are letters that show by themselves all the same. -/
def isHalfwidthSoundMark (c : Char) : Bool := c.toNat = 0xFF9E || c.toNat = 0xFF9F

/-- Whether a character shows on its own: it is printed, displayed and no mark on another one. -/
def isVisible (c : Char) : Bool :=
  !isUnprintable c && !isDefaultIgnorable c && (!isGraphemeExtend c || isHalfwidthSoundMark c)

/-- A character as it stands between visible quotes. -/
def visibleEscape (c : Char) : List Char :=
  if c.toNat = 0 then ['\\', '0']
  else if c = '\t' then ['\\', 't']
  else if c = '\r' then ['\\', 'r']
  else if c = '\n' then ['\\', 'n']
  else if c = '"' then ['\\', '"']
  else if c = '\\' then ['\\', '\\']
  else if isVisible c then [c]
  else codePointEscape c

/-- A text between visible quotes. -/
def visiblyQuoted (text : String) : List Char := '"' :: text.toList.flatMap visibleEscape ++ ['"']

end Redaction.Text

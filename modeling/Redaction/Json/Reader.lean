import Redaction.Json.Basic
import Redaction.Json.Scanner

/-!
# Reading a document

A text is read from left to right and the first fault ends the reading. Two calls in a row take at
least one character of the text, so twice its length bounds how deep the calls go.
-/

namespace Redaction.Json

/-- The colon behind a key. -/
def readColon (text : List Char) : Except Fault (List Char) :=
  match skipBlanks text with
  | [] => .error .endInObject
  | ':' :: rest => .ok rest
  | _ :: _ => .error .colonExpected

/-- Where the items of a list go on: the rest of the text at the next item, or behind the closing
bracket. A comma is needed in front of every item but the first. -/
inductive NextItem where
  /-- Another item begins here. -/
  | item (rest : List Char)
  /-- The list ended before this. -/
  | done (rest : List Char)

/-- Finds the next item of a list. -/
def nextItem (first : Bool) (text : List Char) : Except Fault NextItem :=
  match skipBlanks text with
  | [] => .error .endInList
  | c :: rest =>
    if c = ']' then .ok (.done rest)
    else if first then .ok (.item (c :: rest))
    else if c = ',' then
      match skipBlanks rest with
      | [] => .error .endInValue
      | ']' :: _ => .error .trailingComma
      | rest => .ok (.item rest)
    else .error .commaOrBracketExpected

/-- Where the members of an object go on: the rest of the text behind the opening quote of the next
key, or behind the closing brace. -/
inductive NextMember where
  /-- Another key begins here. -/
  | key (rest : List Char)
  /-- The object ended before this. -/
  | done (rest : List Char)

/-- Finds the next key of an object. -/
def nextMember (first : Bool) (text : List Char) : Except Fault NextMember :=
  match skipBlanks text with
  | [] => .error .endInObject
  | c :: rest =>
    if c = '\x7d' then .ok (.done rest)
    else if first then if c = '"' then .ok (.key rest) else .error .keyExpected
    else if c = ',' then
      match skipBlanks rest with
      | [] => .error .endInValue
      | '"' :: rest => .ok (.key rest)
      | '\x7d' :: _ => .error .trailingComma
      | _ :: _ => .error .keyExpected
    else .error .commaOrBraceExpected

mutual

/-- A value. -/
def readValue : Nat → List Char → Except Fault (Json × List Char)
  | 0, _ => .error .endInValue
  | bound + 1, text =>
    match skipBlanks text with
    | [] => .error .endInValue
    | c :: rest =>
      if c = 'n' then do .ok (.null, ← readWord "ull".toList rest)
      else if c = 't' then do .ok (.bool true, ← readWord "rue".toList rest)
      else if c = 'f' then do .ok (.bool false, ← readWord "alse".toList rest)
      else if c = '"' then do
        let (value, rest) ← readString rest
        .ok (.string value, rest)
      else if c = '[' then do
        let (items, rest) ← readItems bound true rest
        .ok (.array items, rest)
      else if c = '\x7b' then do
        let (members, rest) ← readMembers bound true rest
        .ok (ofMembers members, rest)
      else if c = '-' || c.isDigit then do
        let (value, rest) ← readNumber (c :: rest)
        .ok (.number value, rest)
      else .error .valueExpected

/-- The items of a list up to its closing bracket. -/
def readItems : Nat → Bool → List Char → Except Fault (List Json × List Char)
  | 0, _, _ => .error .endInList
  | bound + 1, first, text => do
    match ← nextItem first text with
    | .done rest => .ok ([], rest)
    | .item rest =>
      let (item, rest) ← readValue bound rest
      let (items, rest) ← readItems bound false rest
      .ok (item :: items, rest)

/-- The members of an object up to its closing brace, in the order of the text. -/
def readMembers : Nat → Bool → List Char → Except Fault (List (String × Json) × List Char)
  | 0, _, _ => .error .endInObject
  | bound + 1, first, text => do
    match ← nextMember first text with
    | .done rest => .ok ([], rest)
    | .key rest =>
      let (key, rest) ← readString rest
      let (value, rest) ← readValue bound (← readColon rest)
      let (members, rest) ← readMembers bound false rest
      .ok ((key, value) :: members, rest)

end

/-- The document that a list of characters writes. -/
def readChars (text : List Char) : Except Fault Json := do
  let (document, rest) ← readValue (2 * text.length + 1) text
  match skipBlanks rest with
  | [] => .ok document
  | _ :: _ => .error .trailingCharacters

/-- The document that a text writes. -/
def read (text : String) : Except Fault Json := readChars text.toList

end Redaction.Json

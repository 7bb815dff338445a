import Redaction.Serial.Data
import Redaction.Serial.Reason
import Redaction.Tree.Basic

/-!
# The document of a program's data

Data is turned into a document from the outside in and from the first element to the last; the first
obstacle ends it. An alternative becomes an object whose only key is its label.
-/

namespace Redaction.Serial

/-- Why data has no document. -/
inductive Obstacle where
  /-- A whole number fits no 64-bit word. -/
  | numberOutOfRange
  /-- A key is an infinite float or not a number. -/
  | floatKeyNotFinite
  /-- A key is neither a text nor anything with a plain text form. -/
  | keyNotText
  /-- A value refused. -/
  | refused (reason : String)
deriving DecidableEq, Repr

/-- The wording of an obstacle. -/
def Obstacle.message : Obstacle → String
  | .numberOutOfRange => "number out of range"
  | .floatKeyNotFinite => "float key must be finite (got NaN or +/-inf)"
  | .keyNotText => "key must be a string"
  | .refused reason => Reason.text reason

namespace Data

/-- The document of a whole number. -/
def ofInteger (value : Int) : Except Obstacle Json :=
  match WordInteger.ofInt? value with
  | some n => .ok (.number (.integer n))
  | none => .error .numberOutOfRange

/-- The document of a float; there is none for values that are not finite, and `null` stands in. -/
def ofDouble : Number.Extended Number.binary64 → Json
  | .finite x => .number (.float x)
  | .infinite _ | .notANumber => .null

/-- A single-precision float has the same value in double precision. -/
def widen : Number.Extended Number.binary32 → Number.Extended Number.binary64
  | .finite x =>
    match x.convert? Number.binary64 with
    | some wide => .finite wide
    | none => .infinite x.negative
  | .infinite negative => .infinite negative
  | .notANumber => .notANumber

/-- The document of a byte. -/
def ofByte (byte : UInt8) : Json :=
  match WordInteger.ofInt? byte.toNat with
  | some n => .number (.integer n)
  | none => .null

/-- The key that a float is. -/
def floatKey {format : Number.BinaryFormat} (layout : Number.DecimalLayout) :
    Number.Extended format → Except Obstacle String
  | .finite x => .ok (String.ofList (x.text layout))
  | .infinite _ | .notANumber => .error .floatKeyNotFinite

/-- The key that a document is. -/
def jsonKey : Json → Except Obstacle String
  | .bool value => .ok (if value then "true" else "false")
  | .number value => .ok (String.ofList value.text)
  | .string value => .ok value
  | .null | .array _ | .object _ => .error .keyNotText

/-- The key that data is. Only texts, labels, characters, truth values and numbers can be keys. -/
def key : Data → Except Obstacle String
  | .json value => jsonKey value
  | .integer value => .ok (String.ofList (Number.integerText value))
  | .single value => floatKey Number.singleLayout value
  | .double value => floatKey Number.doubleLayout value
  | .character value => .ok (String.ofList [value])
  | .label name => .ok name
  | .wrapper value => value.key
  | .refusal reason => .error (.refused reason)
  | .bytes _ | .nothing | .present _ | .sequence _ | .map _ | .record _ | .labelled _ _
  | .labelledSequence _ _ | .labelledRecord _ _ => .error .keyNotText

mutual

/-- The document of data. -/
def toJson : Data → Except Obstacle Json
  | .json value => .ok value
  | .integer value => ofInteger value
  | .single value => .ok (ofDouble (widen value))
  | .double value => .ok (ofDouble value)
  | .character value => .ok (.string (String.ofList [value]))
  | .bytes value => .ok (.array (value.map ofByte))
  | .nothing => .ok .null
  | .present value => value.toJson
  | .wrapper value => value.toJson
  | .sequence items => do .ok (.array (← itemsToJson items))
  | .map entries => do .ok (.ofMembers (← entriesToJson entries))
  | .record fields => do .ok (.ofMembers (← fieldsToJson fields))
  | .label name => .ok (.string name)
  | .labelled name value => do .ok (.object [(name, ← value.toJson)])
  | .labelledSequence name items => do .ok (.object [(name, .array (← itemsToJson items))])
  | .labelledRecord name fields => do .ok (.object [(name, .ofMembers (← fieldsToJson fields))])
  | .refusal reason => .error (.refused reason)

/-- The documents of the items of a list. -/
def itemsToJson : List Data → Except Obstacle (List Json)
  | [] => .ok []
  | item :: rest => do
    let item ← item.toJson
    .ok (item :: (← itemsToJson rest))

/-- The members of a map, each key before its value. -/
def entriesToJson : List (Data × Data) → Except Obstacle (List (String × Json))
  | [] => .ok []
  | (key, value) :: rest => do
    let key ← key.key
    let value ← value.toJson
    .ok ((key, value) :: (← entriesToJson rest))

/-- The members of a record. -/
def fieldsToJson : List (String × Data) → Except Obstacle (List (String × Json))
  | [] => .ok []
  | (name, value) :: rest => do
    let value ← value.toJson
    .ok ((name, value) :: (← fieldsToJson rest))

end

/-- The tree of data. -/
def toTree (data : Data) : Except Obstacle Tree := do .ok (.ofJson (← data.toJson))

end Data

end Redaction.Serial

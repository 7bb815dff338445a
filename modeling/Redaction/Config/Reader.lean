import Redaction.Config.Keyword
import Redaction.Json.Reader

/-!
# Reading a configuration

A configuration is written as a JSON object with a member for every setting that differs from the
default, or as a list of the values in the order of the settings. A keyword may also stand as the
only key of an object whose value is `null`. Reading goes from left to right and ends at the first
error; what has been read is then checked for flaws.
-/

namespace Redaction

namespace Config

/-- What was found in the place of something else. -/
inductive Found where
  /-- The value `null`. -/
  | null
  /-- A truth value. -/
  | bool (value : Bool)
  /-- A number. -/
  | number (value : Number)
  /-- A text. -/
  | text (value : String)
  /-- The beginning of a list. -/
  | list
  /-- The beginning of an object. -/
  | object
deriving DecidableEq

/-- The words for what was found. -/
def Found.words : Found → String
  | .null => "null"
  | .bool value => "boolean `" ++ String.ofList (Json.boolText value) ++ "`"
  | .number (.integer n) => "integer `" ++ String.ofList (Number.integerText n.value) ++ "`"
  | .number (.float x) => "floating point `" ++ String.ofList (Number.float x).text ++ "`"
  | .text value => "string " ++ String.ofList (Text.visiblyQuoted value)
  | .list => "sequence"
  | .object => "map"

/-- What should have been found. -/
inductive Wanted where
  /-- A whole configuration. -/
  | configuration
  /-- A text. -/
  | text
  /-- A keyword. -/
  | keyword
  /-- The value `null` behind a keyword. -/
  | unit
deriving DecidableEq, Repr

/-- The words for what should have been found. -/
def Wanted.words : Wanted → String
  | .configuration => "struct SanitizerConfig"
  | .text => "a string"
  | .keyword => "variant identifier"
  | .unit => "unit"

/-- Why a text is no configuration. -/
inductive ReadError where
  /-- The text is no JSON. -/
  | spelling (fault : Json.Fault)
  /-- A value is of the wrong kind. -/
  | unexpected (found : Found) (wanted : Wanted)
  /-- A key belongs to no setting. -/
  | unknownKey (key : String)
  /-- A setting is given twice. -/
  | duplicateKey (setting : Setting)
  /-- A keyword is none of those of its setting. -/
  | unknownKeyword (word : String) (known : List String)
deriving DecidableEq

/-- A word between backticks. -/
def ticked (word : String) : String := "`" ++ word ++ "`"

/-- A choice between words: two are joined by "or", more are listed. -/
def oneOf : List String → String
  | [first, second] => ticked first ++ " or " ++ ticked second
  | words => "one of " ++ ", ".intercalate (words.map ticked)

/-- The wording of an error. -/
def ReadError.message : ReadError → String
  | .spelling fault => fault.message
  | .unexpected found wanted => "invalid type: " ++ found.words ++ ", expected " ++ wanted.words
  | .unknownKey key =>
    "unknown field " ++ ticked key ++ ", expected " ++ oneOf (Setting.all.map Setting.key)
  | .duplicateKey setting => "duplicate field " ++ ticked setting.key
  | .unknownKeyword word known =>
    "unknown variant " ++ ticked word ++ ", expected " ++ oneOf known

/-- Takes over the result of a lexical element. -/
def lexical {α : Type} (result : Except Json.Fault α) : Except ReadError α :=
  result.mapError .spelling

/-- The error that a value of the wrong kind is. Simple values are read to their end, so that their
own faults come first; of a list or an object only the beginning counts. -/
def mismatch (wanted : Wanted) (text : List Char) : ReadError :=
  let found : Except Json.Fault Found :=
    match text with
    | [] => .error .endInValue
    | c :: rest =>
      if c = 'n' then (Json.readWord "ull".toList rest).map fun _ => .null
      else if c = 't' then (Json.readWord "rue".toList rest).map fun _ => .bool true
      else if c = 'f' then (Json.readWord "alse".toList rest).map fun _ => .bool false
      else if c = '"' then (Json.readString rest).map fun read => .text read.1
      else if c = '[' then .ok .list
      else if c = '\x7b' then .ok .object
      else if c = '-' || c.isDigit then (Json.readNumber (c :: rest)).map fun read => .number read.1
      else .error .valueExpected
  match found with
  | .ok found => .unexpected found wanted
  | .error fault => .spelling fault

/-- A text, where one is wanted. -/
def readText (wanted : Wanted) (text : List Char) : Except ReadError (String × List Char) :=
  match Json.skipBlanks text with
  | '"' :: rest => lexical (Json.readString rest)
  | other => .error (mismatch wanted other)

/-- The value `null`, where one is wanted. -/
def readNull (text : List Char) : Except ReadError (Unit × List Char) :=
  match Json.skipBlanks text with
  | 'n' :: rest => do .ok ((), ← lexical (Json.readWord "ull".toList rest))
  | other => .error (mismatch .unit other)

/-- A text or `null`. -/
def readOptionalText (text : List Char) : Except ReadError (Option String × List Char) :=
  match Json.skipBlanks text with
  | 'n' :: rest => do .ok (none, ← lexical (Json.readWord "ull".toList rest))
  | other => do
    let (value, rest) ← readText .text other
    .ok (some value, rest)

/-- A keyword between quotes. -/
def readWordOf {α : Type} (keywords : Keywords α) (text : List Char) :
    Except ReadError (α × List Char) := do
  let (word, rest) ← readText .keyword text
  match Members.find? word keywords with
  | some meaning => .ok (meaning, rest)
  | none => .error (.unknownKeyword word (keywords.map Prod.fst))

/-- A keyword between quotes, or as the only key of an object whose value is `null`. -/
def readKeyword {α : Type} (keywords : Keywords α) (text : List Char) :
    Except ReadError (α × List Char) :=
  match Json.skipBlanks text with
  | [] => .error (.spelling .endInValue)
  | '"' :: rest => readWordOf keywords ('"' :: rest)
  | '\x7b' :: rest => do
    let (meaning, rest) ← readWordOf keywords rest
    let ((), rest) ← readNull (← lexical (Json.readColon rest))
    match Json.skipBlanks rest with
    | [] => .error (.spelling .endInObject)
    | '\x7d' :: rest => .ok (meaning, rest)
    | _ :: _ => .error (.spelling .valueExpected)
  | _ :: _ => .error (.spelling .valueExpected)

/-- The configuration after the value of a setting has been read. -/
def readSetting (config : Config) (setting : Setting) (text : List Char) :
    Except ReadError (Config × List Char) :=
  match setting with
  | .style => do
    let (style, rest) ← readKeyword Style.keywords text
    .ok ({ config with style }, rest)
  | .marker => do
    let (marker, rest) ← readText .text text
    .ok ({ config with marker }, rest)
  | .secretSuffix => do
    let (secretSuffix, rest) ← readOptionalText text
    .ok ({ config with secretSuffix }, rest)
  | .fallback => do
    let (fallback, rest) ← readKeyword Fallback.keywords text
    .ok ({ config with fallback }, rest)
  | .unknownFields => do
    let (unknownFields, rest) ← readKeyword UnknownFields.keywords text
    .ok ({ config with unknownFields }, rest)

/-- The members of a configuration object. Every member takes its setting out of those that are
still missing, so that there can be no more members than settings. -/
def readMembers (config : Config) (missing : List Setting) (first : Bool) (text : List Char) :
    Except ReadError (Config × List Char) := do
  match ← lexical (Json.nextMember first text) with
  | .done rest => .ok (config, rest)
  | .key rest =>
    let (key, rest) ← lexical (Json.readString rest)
    match Setting.ofKey? key with
    | none => .error (.unknownKey key)
    | some setting =>
      if _missing : setting ∈ missing then
        let (config, rest) ← readSetting config setting (← lexical (Json.readColon rest))
        readMembers config (missing.erase setting) false rest
      else .error (.duplicateKey setting)
  termination_by missing.length
  decreasing_by
    have shorter := List.length_erase_of_mem _missing
    have positive := List.length_pos_of_mem _missing
    omega

/-- The end of a configuration list, when every setting has its value. -/
def readListEnd (text : List Char) : Except ReadError (List Char) :=
  match Json.skipBlanks text with
  | [] => .error (.spelling .endInList)
  | ']' :: rest => .ok rest
  | ',' :: rest =>
    match Json.skipBlanks rest with
    | ']' :: _ => .error (.spelling .trailingComma)
    | _ => .error (.spelling .trailingCharacters)
  | _ :: _ => .error (.spelling .trailingCharacters)

/-- The items of a configuration list: the values of the settings that are still missing. -/
def readItems (config : Config) :
    List Setting → Bool → List Char → Except ReadError (Config × List Char)
  | [], _, text => do .ok (config, ← readListEnd text)
  | setting :: missing, first, text => do
    match ← lexical (Json.nextItem first text) with
    | .done rest => .ok (config, rest)
    | .item rest =>
      let (config, rest) ← readSetting config setting rest
      readItems config missing false rest

/-- The configuration at the beginning of a text. -/
def readForm (text : List Char) : Except ReadError (Config × List Char) :=
  match Json.skipBlanks text with
  | '\x7b' :: rest => readMembers {} Setting.all true rest
  | '[' :: rest => readItems {} Setting.all true rest
  | other => .error (mismatch .configuration other)

/-- The configuration that a text writes, flawed or not. -/
def readChars (text : List Char) : Except ReadError Config := do
  let (config, rest) ← readForm text
  match Json.skipBlanks rest with
  | [] => .ok config
  | _ :: _ => .error (.spelling .trailingCharacters)

end Config

/-- Why a text yields no configuration that could be used. -/
inductive ConfigError where
  /-- The text is no configuration. -/
  | unreadable (error : Config.ReadError)
  /-- The configuration is flawed. -/
  | flawed (flaw : ConfigFlaw)
deriving DecidableEq

/-- The wording of an error. -/
def ConfigError.message : ConfigError → String
  | .unreadable error => "parse config: " ++ error.message
  | .flawed flaw => flaw.message

/-- The configuration that a text writes, if it can be used. -/
def Config.read (text : String) : Except ConfigError Config :=
  match Config.readChars text.toList with
  | .error error => .error (.unreadable error)
  | .ok config =>
    match config.flaw? with
    | some flaw => .error (.flawed flaw)
    | none => .ok config

end Redaction

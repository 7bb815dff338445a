import Redaction.Config.Basic

/-!
# The words of a configuration text

Each setting has a key, and the settings that choose between a few possibilities have a keyword for
each of them.
-/

namespace Redaction

/-- The settings of a configuration. -/
inductive Setting where
  /-- The form of the rendering. -/
  | style
  /-- The text in the place of values that have been taken out. -/
  | marker
  /-- The suffix of secret names. -/
  | secretSuffix
  /-- The treatment of values that do not fit the schema. -/
  | fallback
  /-- The treatment of data that the schema does not mention. -/
  | unknownFields
deriving DecidableEq, Repr

namespace Setting

/-- The settings in the order in which a list gives them. -/
def all : List Setting := [.style, .marker, .secretSuffix, .fallback, .unknownFields]

/-- The key of a setting. -/
def key : Setting → String
  | .style => "style"
  | .marker => "marker"
  | .secretSuffix => "secret_suffix"
  | .fallback => "fallback"
  | .unknownFields => "unknown_fields"

/-- The setting of a key. -/
def ofKey? (key : String) : Option Setting := all.find? fun setting => setting.key == key

end Setting

/-- The keywords of a setting with their meanings. -/
abbrev Keywords (α : Type) := List (String × α)

/-- The keywords for the form of the rendering. -/
def Style.keywords : Keywords Style := [("json", .json), ("compact", .compact)]

/-- The keywords for the treatment of values that do not fit the schema. -/
def Fallback.keywords : Keywords Fallback := [("strip", .strip), ("passthrough", .passthrough)]

/-- The keywords for the treatment of data that the schema does not mention. -/
def UnknownFields.keywords : Keywords UnknownFields :=
  [("drop", .drop), ("strip", .strip), ("keep", .keep)]

end Redaction

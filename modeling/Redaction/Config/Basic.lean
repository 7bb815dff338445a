import Redaction.Tree.Rendering

/-!
# Configurations

A configuration says how a redacted message is rendered and what is done with data that the schema
does not describe. The default is JSON, and data that cannot be described does not show.
-/

namespace Redaction

/-- What is done with a value that the schema describes differently: its type is missing, a group is
malformed, or the value has another shape. -/
inductive Fallback where
  /-- The value is taken out. -/
  | strip
  /-- The value stays as it is. -/
  | passthrough
deriving DecidableEq, Repr

/-- What is done with data that the schema does not mention: keys that name neither a field nor a
group, and unknown alternatives. -/
inductive UnknownFields where
  /-- The data is removed. -/
  | drop
  /-- The key stays and the value is taken out. -/
  | strip
  /-- The data stays as it is. -/
  | keep
deriving DecidableEq, Repr

/-- A configuration. -/
structure Config where
  /-- The form of the rendering. -/
  style : Style := .json
  /-- The text in the place of each value that has been taken out. -/
  marker : String := "***stripped***"
  /-- The suffix that makes a field name secret, if there is one. -/
  secretSuffix : Option String := none
  /-- What is done with values that do not fit the schema. -/
  fallback : Fallback := .strip
  /-- What is done with data that the schema does not mention. -/
  unknownFields : UnknownFields := .drop
deriving DecidableEq, Repr

/-- Why a configuration cannot be used. -/
inductive ConfigFlaw where
  /-- Values that have been taken out would leave no trace. -/
  | emptyMarker
  /-- Every name ends in the empty suffix. -/
  | emptySuffix
deriving DecidableEq, Repr

/-- The wording of a flaw. -/
def ConfigFlaw.message : ConfigFlaw → String
  | .emptyMarker => "redaction marker must not be empty"
  | .emptySuffix => "secret suffix must not be empty"

namespace Config

/-- The configuration for messages of the time when secrets could only be told by the end of their
names. -/
def legacyNames : Config := { secretSuffix := some "_secrets" }

/-- The first flaw of a configuration, if it has one. -/
def flaw? (config : Config) : Option ConfigFlaw :=
  if config.marker = "" then some .emptyMarker
  else if config.secretSuffix = some "" then some .emptySuffix
  else none

/-- A configuration has no flaw if neither the marker nor the suffix is empty. -/
theorem flaw?_eq_none_iff {config : Config} :
    config.flaw? = none ↔ config.marker ≠ "" ∧ config.secretSuffix ≠ some "" := by
  unfold flaw?
  split
  · next empty => exact ⟨nofun, fun sound => absurd empty sound.1⟩
  split
  · next empty => exact ⟨nofun, fun sound => absurd empty sound.2⟩
  · next marker suffix => exact ⟨fun _ => ⟨marker, suffix⟩, fun _ => rfl⟩

/-- One adjustment of a configuration. -/
inductive Adjustment where
  /-- Another form of the rendering. -/
  | style (style : Style)
  /-- Another marker. -/
  | marker (marker : String)
  /-- Another suffix. -/
  | secretSuffix (suffix : String)
  /-- Another fallback. -/
  | fallback (fallback : Fallback)
  /-- Another treatment of data that the schema does not mention. -/
  | unknownFields (unknownFields : UnknownFields)
deriving DecidableEq, Repr

/-- The configuration after an adjustment. An empty marker and an empty suffix are ignored. -/
def adjust (config : Config) : Adjustment → Config
  | .style style => { config with style }
  | .marker marker => if marker = "" then config else { config with marker }
  | .secretSuffix suffix =>
    if suffix = "" then config else { config with secretSuffix := some suffix }
  | .fallback fallback => { config with fallback }
  | .unknownFields unknownFields => { config with unknownFields }

/-- The configuration after a list of adjustments. -/
def adjustAll (config : Config) (adjustments : List Adjustment) : Config :=
  adjustments.foldl adjust config

end Config

end Redaction

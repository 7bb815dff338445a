import Redaction.Sanitizer.Record

/-!
# Building a sanitizer

A sanitizer is a configuration together with the log that gets its records. It starts from a preset
or from any configuration, which is not checked, and without a log; then calls change it one after
the other. What a log is belongs to the program that uses the sanitizer.
-/

namespace Redaction

/-- The logs of a program. -/
structure Logging (Log : Type) where
  /-- The log that drops every record. -/
  discarding : Log
  /-- The log that adds a detail, as a name and a text, to each record and passes it on. -/
  withDetail : Log → String × String → Log

/-- A configuration and a log. -/
structure Sanitizer (Log : Type) where
  /-- The configuration. -/
  config : Config
  /-- The log. -/
  log : Log

namespace Sanitizer

variable {Log : Type} (logging : Logging Log)

/-- A call that changes a sanitizer. -/
inductive Call (Log : Type) where
  /-- An adjustment of the configuration. -/
  | adjust (adjustment : Config.Adjustment)
  /-- Another log. -/
  | log (log : Log)

/-- The sanitizer of a configuration. -/
def ofConfig (config : Config) : Sanitizer Log := ⟨config, logging.discarding⟩

/-- The sanitizer of the default configuration. -/
def standard : Sanitizer Log := ofConfig logging {}

/-- The sanitizer for messages of the time when secrets could only be told by the end of their
names. -/
def legacyNames : Sanitizer Log := ofConfig logging Config.legacyNames

/-- The sanitizer after a call. A log gets the records with the name of the sanitizer's part of the
program. -/
def apply (sanitizer : Sanitizer Log) : Call Log → Sanitizer Log
  | .adjust adjustment => { sanitizer with config := sanitizer.config.adjust adjustment }
  | .log log => { sanitizer with log := logging.withDetail log ("component", logComponent) }

/-- The sanitizer after a list of calls. -/
def applyAll (sanitizer : Sanitizer Log) (calls : List (Call Log)) : Sanitizer Log :=
  calls.foldl (apply logging) sanitizer

/-- The adjustment that a call makes, if it makes one. -/
def Call.adjustment? : Call Log → Option Config.Adjustment
  | .adjust adjustment => some adjustment
  | .log _ => none

/-- The configuration is adjusted by the calls that do not concern the log. -/
theorem config_applyAll (sanitizer : Sanitizer Log) (calls : List (Call Log)) :
    (sanitizer.applyAll logging calls).config =
      sanitizer.config.adjustAll (calls.filterMap Call.adjustment?) := by
  induction calls generalizing sanitizer with
  | nil => rfl
  | cons call rest ih =>
    rw [applyAll, List.foldl_cons]
    refine (ih (sanitizer.apply logging call)).trans ?_
    cases call <;> rfl

end Sanitizer

end Redaction

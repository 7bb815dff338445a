import Mathlib.Data.List.Basic
import Redaction.Policy.Basic
import Redaction.Proofs.Config.Described
import Redaction.Sanitizer.Builder

/-!
# What a sanitizer is after any calls

Each call gives a value to one key: to a setting of the configuration or to the log. The values that
would make a configuration unusable are ignored, so a sanitizer that starts with a usable
configuration keeps one. Every key has the value that it was given last, whatever calls for other
keys stand in between.
-/

namespace Redaction

/-- The values that a setting can have. -/
def Setting.Value : Setting → Type
  | .style => Style
  | .marker => String
  | .secretSuffix => Option String
  | .fallback => Fallback
  | .unknownFields => UnknownFields

namespace Config

/-- The value of a setting. -/
def value (config : Config) : (setting : Setting) → setting.Value
  | .style => config.style
  | .marker => config.marker
  | .secretSuffix => config.secretSuffix
  | .fallback => config.fallback
  | .unknownFields => config.unknownFields

/-- Configurations with the same values are equal. -/
theorem eq_of_value_eq {config other : Config}
    (same : ∀ setting, config.value setting = other.value setting) : config = other := by
  refine Setting.eq_of_same fun setting => ?_
  have here := same setting
  cases setting <;> exact here

namespace Adjustment

/-- The setting that an adjustment is about. -/
def setting : Adjustment → Setting
  | .style _ => .style
  | .marker _ => .marker
  | .secretSuffix _ => .secretSuffix
  | .fallback _ => .fallback
  | .unknownFields _ => .unknownFields

/-- The value that an adjustment gives to a setting, if it is about this one and is not ignored. -/
def value? : Adjustment → (setting : Setting) → Option setting.Value
  | .style given, .style => some given
  | .marker given, .marker => if given = "" then none else some given
  | .secretSuffix given, .secretSuffix => if given = "" then none else some (some given)
  | .fallback given, .fallback => some given
  | .unknownFields given, .unknownFields => some given
  | _, _ => none

/-- An adjustment gives no value to the settings that it is not about. -/
theorem value?_of_ne {adjustment : Adjustment} {other : Setting}
    (different : adjustment.setting ≠ other) : adjustment.value? other = none := by
  cases adjustment <;> cases other <;> first | rfl | exact absurd rfl different

/-- The adjustments that are ignored: to an empty marker and to an empty suffix. -/
def ignored : List Adjustment := [.marker "", .secretSuffix ""]

/-- An adjustment gives a value to the setting that it is about, unless it is ignored. -/
theorem value?_eq_none_iff {adjustment : Adjustment} {other : Setting} :
    adjustment.value? other = none ↔ adjustment.setting ≠ other ∨ adjustment ∈ ignored := by
  by_cases same : adjustment.setting = other
  · subst same
    cases adjustment <;> simp [setting, value?, ignored]
  · exact iff_of_true (value?_of_ne same) (.inl same)

end Adjustment

/-- A setting has the value that an adjustment gives to it, or else the value of before. -/
theorem value_adjust (config : Config) (adjustment : Adjustment) (setting : Setting) :
    (config.adjust adjustment).value setting =
      (adjustment.value? setting).getD (config.value setting) := by
  cases adjustment with
  | marker marker =>
    rw [adjust]
    split
    · next empty => cases setting <;> simp [Adjustment.value?, empty]
    · next solid => cases setting <;> simp only [Adjustment.value?, if_neg solid] <;> rfl
  | secretSuffix suffix =>
    rw [adjust]
    split
    · next empty => cases setting <;> simp [Adjustment.value?, empty]
    · next solid => cases setting <;> simp only [Adjustment.value?, if_neg solid] <;> rfl
  | style _ => cases setting <;> rfl
  | fallback _ => cases setting <;> rfl
  | unknownFields _ => cases setting <;> rfl

/-- No adjustment brings in a flaw. -/
theorem flaw?_adjust {config : Config} (sound : config.flaw? = none) (adjustment : Adjustment) :
    (config.adjust adjustment).flaw? = none := by
  obtain ⟨marker, suffix⟩ := flaw?_eq_none_iff.mp sound
  refine flaw?_eq_none_iff.mpr ?_
  cases adjustment with
  | marker other =>
    rw [adjust]
    split
    · exact ⟨marker, suffix⟩
    · next solid => exact ⟨solid, suffix⟩
  | secretSuffix other =>
    rw [adjust]
    split
    · exact ⟨marker, suffix⟩
    · next solid => exact ⟨marker, fun empty => solid (Option.some.inj empty)⟩
  | style _ => exact ⟨marker, suffix⟩
  | fallback _ => exact ⟨marker, suffix⟩
  | unknownFields _ => exact ⟨marker, suffix⟩

/-- Nor do several adjustments. -/
theorem flaw?_adjustAll {config : Config} (sound : config.flaw? = none)
    (adjustments : List Adjustment) : (config.adjustAll adjustments).flaw? = none := by
  induction adjustments generalizing config with
  | nil => exact sound
  | cons adjustment rest ih => exact ih (flaw?_adjust sound adjustment)

end Config

namespace Sanitizer

/-- What a call gives a value to. -/
inductive Key where
  /-- A setting of the configuration. -/
  | setting (setting : Setting)
  /-- The log. -/
  | log
deriving DecidableEq, Repr

/-- The values that a key can have. -/
def Key.Value (Log : Type) : Key → Type
  | .setting own => own.Value
  | .log => Log

variable {Log : Type} {logging : Logging Log}

/-- The value of a key. -/
def value (sanitizer : Sanitizer Log) : (key : Key) → key.Value Log
  | .setting own => sanitizer.config.value own
  | .log => sanitizer.log

/-- Sanitizers with the same values are equal. -/
theorem eq_of_value_eq {sanitizer other : Sanitizer Log}
    (same : ∀ key, sanitizer.value key = other.value key) : sanitizer = other := by
  obtain ⟨config, log⟩ := sanitizer
  obtain rfl : config = other.config := Config.eq_of_value_eq fun setting => same (.setting setting)
  obtain rfl : log = other.log := same .log
  rfl

namespace Call

/-- The key that a call is about. -/
def key : Call Log → Key
  | .adjust adjustment => .setting adjustment.setting
  | .log _ => .log

/-- The value that a call gives to a key, if it is about this one and is not ignored. -/
def value? (logging : Logging Log) : Call Log → (key : Key) → Option (key.Value Log)
  | .adjust adjustment, .setting own => adjustment.value? own
  | .log given, .log => some (logging.withDetail given ("component", logComponent))
  | _, _ => none

/-- A call gives no value to the keys that it is not about. -/
theorem value?_of_ne {call : Call Log} {other : Key} (different : call.key ≠ other) :
    call.value? logging other = none := by
  cases call with
  | adjust adjustment =>
    cases other with
    | setting setting =>
      exact Config.Adjustment.value?_of_ne fun same => different (congrArg Key.setting same)
    | log => rfl
  | log log =>
    cases other with
    | setting setting => rfl
    | log => exact absurd rfl different

/-- A call gives a value to the key that it is about, unless it is an adjustment that is ignored. -/
theorem value?_eq_none_iff {call : Call Log} {other : Key} :
    call.value? logging other = none ↔
      call.key ≠ other ∨ ∃ adjustment ∈ Config.Adjustment.ignored, call = .adjust adjustment := by
  by_cases same : call.key = other
  · subst same
    cases call with
    | adjust adjustment =>
      refine Config.Adjustment.value?_eq_none_iff.trans ⟨?_, ?_⟩
      · rintro (different | ignored)
        · exact absurd rfl different
        · exact .inr ⟨adjustment, ignored, rfl⟩
      · rintro (different | ⟨other, ignored, same⟩)
        · exact absurd rfl different
        · cases same
          exact .inr ignored
    | log log =>
      refine ⟨nofun, ?_⟩
      rintro (different | ⟨other, _, same⟩)
      · exact absurd rfl different
      · cases same
  · exact iff_of_true (value?_of_ne same) (.inl same)

/-- The values that calls give to a key come from the calls that are about it. -/
theorem filterMap_value?_filter (calls : List (Call Log)) (key : Key) :
    (calls.filter fun call => call.key = key).filterMap (·.value? logging key) =
      calls.filterMap (·.value? logging key) := by
  rw [List.filterMap_filter]
  refine List.filterMap_congr fun call _ => ?_
  by_cases own : call.key = key
  · rw [if_pos (decide_eq_true own)]
  · rw [if_neg (by rwa [decide_eq_true_eq]), value?_of_ne own]

end Call

/-- A key has the value that a call gives to it, or else the value of before. -/
theorem value_apply (sanitizer : Sanitizer Log) (call : Call Log) (key : Key) :
    (sanitizer.apply logging call).value key =
      (call.value? logging key).getD (sanitizer.value key) := by
  cases call with
  | adjust adjustment =>
    cases key with
    | setting setting => exact Config.value_adjust sanitizer.config adjustment setting
    | log => rfl
  | log log => cases key <;> rfl

/-- A key has the value that it was given last, or else the value of the beginning. -/
theorem value_applyAll (sanitizer : Sanitizer Log) (calls : List (Call Log)) (key : Key) :
    (sanitizer.applyAll logging calls).value key =
      ((calls.filterMap (·.value? logging key)).getLast?).getD (sanitizer.value key) := by
  induction calls generalizing sanitizer with
  | nil => rfl
  | cons call rest ih =>
    rw [applyAll, List.foldl_cons]
    refine (ih (sanitizer.apply logging call)).trans ?_
    rw [value_apply, List.filterMap_cons]
    cases call.value? logging key with
    | none => rw [Option.getD_none]
    | some value => rw [List.getLast?_cons, Option.getD_some, Option.getD_some]

/-- Calls bring in no flaw. -/
theorem flaw?_applyAll {sanitizer : Sanitizer Log} (sound : sanitizer.config.flaw? = none)
    (calls : List (Call Log)) : (sanitizer.applyAll logging calls).config.flaw? = none := by
  rw [config_applyAll]
  exact Config.flaw?_adjustAll sound _

/-- Calls about different keys may change places. -/
theorem apply_comm (sanitizer : Sanitizer Log) {first second : Call Log}
    (different : first.key ≠ second.key) :
    (sanitizer.apply logging first).apply logging second =
      (sanitizer.apply logging second).apply logging first := by
  refine eq_of_value_eq fun key => ?_
  simp only [value_apply]
  -- One of the two is not about this key.
  by_cases own : first.key = key
  · rw [Call.value?_of_ne (own ▸ different.symm), Option.getD_none, Option.getD_none]
  · rw [Call.value?_of_ne own, Option.getD_none, Option.getD_none]

/-- Calls that are, key by key, the same calls in the same order make the same sanitizer. -/
theorem applyAll_eq_of_filter_eq {calls others : List (Call Log)} (sanitizer : Sanitizer Log)
    (same : ∀ key, calls.filter (fun call => call.key = key) =
      others.filter fun call => call.key = key) :
    sanitizer.applyAll logging calls = sanitizer.applyAll logging others := by
  refine eq_of_value_eq fun key => ?_
  rw [value_applyAll, value_applyAll, ← Call.filterMap_value?_filter calls, same key,
    Call.filterMap_value?_filter]

/-- How a sanitizer may start: from a preset, or from a configuration without flaws. -/
inductive Started (logging : Logging Log) : Sanitizer Log → Prop where
  /-- From the default configuration. -/
  | standard : Started logging (standard logging)
  /-- From the configuration for the older naming convention. -/
  | legacyNames : Started logging (legacyNames logging)
  /-- From a configuration of one's own. -/
  | ofConfig {config : Config} (sound : config.flaw? = none) :
    Started logging (ofConfig logging config)

/-- A sanitizer starts without a flaw. -/
theorem Started.flaw? {sanitizer : Sanitizer Log} (started : Started logging sanitizer) :
    sanitizer.config.flaw? = none := by
  cases started with
  | standard => rfl
  | legacyNames => rfl
  | ofConfig sound => exact sound

end Sanitizer

/-- With a marker that is not empty, what has been taken out is rendered in another way than with
the empty one. -/
theorem Tree.render_stripped_ne {marker : String} (solid : marker ≠ "") (style : Style) :
    Tree.stripped.render style marker ≠ Tree.stripped.render style "" := by
  have positive : 0 < marker.toList.length :=
    List.length_pos_iff.mpr fun empty => solid (String.toList_inj.mp empty)
  intro same
  have lengths := congrArg List.length (String.ofList_inj.mp same)
  cases style with
  | compact => exact Nat.ne_of_gt positive lengths
  | json =>
    have written := Json.length_le_flatMap_jsonEscape marker.toList
    change (Text.jsonQuoted marker).length = 2 at lengths
    simp only [Text.jsonQuoted, List.length_cons, List.length_append, List.length_nil] at lengths
    omega

/-- Unless the suffix is empty, there is a name that it does not make secret. -/
theorem Policy.exists_matchesName_eq {suffix : Option String} (solid : suffix ≠ some "") :
    ∃ name, ∀ additional : AdditionalNames,
      Policy.matchesName ⟨suffix, additional⟩ name = additional.contains name := by
  refine ⟨"", fun additional => ?_⟩
  have apart : suffix.any (endsIn "") = false := by
    cases suffix with
    | none => rfl
    | some suffix =>
      rw [Option.any_some, endsIn, ← Bool.not_eq_true, List.isSuffixOf_iff_suffix]
      exact fun ends => solid (congrArg some (String.toList_inj.mp (List.suffix_nil.mp ends)))
  rw [matchesName, apart, Bool.or_false]

open Sanitizer (Call Key Started)

/-- A sanitizer that starts from a preset, or from a configuration without flaws, has no flaw after
any calls. Each key has the value of the last call that was about it and not ignored, and calls
about different keys may change places. So values that have been taken out leave a trace in every
style, and there is a name that no suffix makes secret. -/
theorem sound_and_latest_after_calls {Log : Type} {logging : Logging Log} {start : Sanitizer Log}
    (started : Started logging start) (calls : List (Call Log)) :
    let built := start.applyAll logging calls
    built.config.flaw? = none
      ∧ (∀ key, built.value key =
          ((calls.filterMap (·.value? logging key)).getLast?).getD (start.value key))
      ∧ (∀ (call : Call Log) (key : Key), call.value? logging key = none ↔
          call.key ≠ key ∨ ∃ adjustment ∈ Config.Adjustment.ignored, call = .adjust adjustment)
      ∧ (∀ (sanitizer : Sanitizer Log) (first second : Call Log), first.key ≠ second.key →
          (sanitizer.apply logging first).apply logging second =
            (sanitizer.apply logging second).apply logging first)
      ∧ (∀ others : List (Call Log),
          (∀ key, calls.filter (fun call => call.key = key) =
            others.filter fun call => call.key = key) →
          start.applyAll logging others = built)
      ∧ (∀ style, Tree.stripped.render style built.config.marker ≠ Tree.stripped.render style "")
      ∧ ∃ name, ∀ additional : AdditionalNames,
          Policy.matchesName ⟨built.config.secretSuffix, additional⟩ name =
            additional.contains name := by
  intro built
  have sound : built.config.flaw? = none := Sanitizer.flaw?_applyAll started.flaw? calls
  obtain ⟨marker, suffix⟩ := Config.flaw?_eq_none_iff.mp sound
  refine ⟨sound, start.value_applyAll calls, fun _ _ => Call.value?_eq_none_iff,
    fun sanitizer _ _ => sanitizer.apply_comm, fun others same => ?_,
    Tree.render_stripped_ne marker, Policy.exists_matchesName_eq suffix⟩
  exact start.applyAll_eq_of_filter_eq fun key => (same key).symm

/-- Logs that are told apart by the details that they add. -/
def Logging.byDetails : Logging (List (String × String)) where
  discarding := []
  withDetail log detail := log ++ [detail]

/-- An empty marker and an empty suffix change nothing, whatever was there before. -/
theorem values_after_empty_ones :
    Started .byDetails (Sanitizer.legacyNames .byDetails)
      ∧ let built := (Sanitizer.legacyNames .byDetails).applyAll .byDetails
          [.adjust (.marker "-"), .log [], .adjust (.secretSuffix ""), .adjust (.marker "[x]"),
            .adjust (.marker "")]
        built.value (.setting .marker) = "[x]"
          ∧ built.value (.setting .secretSuffix) = some "_secrets"
          ∧ built.value .log = [("component", "protosanitizer")] :=
  have latest := (sound_and_latest_after_calls .legacyNames _).2.1
  ⟨.legacyNames, latest (.setting .marker), latest (.setting .secretSuffix), latest .log⟩

end Redaction

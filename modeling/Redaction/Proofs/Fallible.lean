/-!
# Computations that may fail

A computation in several steps succeeds if all of its steps do. Two computations agree if both fail
with the same fault or both succeed with results that correspond, and steps that agree make up
computations that agree.
-/

namespace Redaction

variable {ε α β γ δ : Type} {result : β}

/-- Steps in succession succeed exactly if each of them does. -/
theorem bind_eq_ok_iff {first : Except ε α} {next : α → Except ε β} :
    first >>= next = .ok result ↔ ∃ value, first = .ok value ∧ next value = .ok result := by
  cases first with
  | error fault =>
    refine ⟨nofun, ?_⟩
    rintro ⟨_, failed, _⟩
    cases failed
  | ok value =>
    refine ⟨fun done => ⟨value, rfl, done⟩, ?_⟩
    rintro ⟨_, same, done⟩
    exact Except.ok.inj same ▸ done

/-- A computation has a result exactly if it succeeds with it. -/
theorem toOption_eq_some_iff {computed : Except ε β} :
    computed.toOption = some result ↔ computed = .ok result := by
  cases computed with
  | error _ => exact ⟨nofun, nofun⟩
  | ok value =>
    exact ⟨fun same => Option.some.inj same ▸ rfl, fun same => Except.ok.inj same ▸ rfl⟩

/-- Two computations agree: both fail with one fault, or both succeed with related results. -/
inductive Agree (related : α → β → Prop) : Except ε α → Except ε β → Prop where
  /-- Both fail. -/
  | error (fault : ε) : Agree related (.error fault) (.error fault)
  /-- Both succeed. -/
  | ok {value : α} {twin : β} (same : related value twin) : Agree related (.ok value) (.ok twin)

/-- A computation agrees with itself. -/
theorem Agree.refl (computed : Except ε α) : Agree Eq computed computed := by
  cases computed with
  | error fault => exact .error fault
  | ok value => exact .ok rfl

/-- Computations that agree still agree after steps that do. -/
theorem Agree.bind {related : α → β → Prop} {after : γ → δ → Prop} {first : Except ε α}
    {twin : Except ε β} {next : α → Except ε γ} {other : β → Except ε δ}
    (agree : Agree related first twin)
    (each : ∀ value counterpart, related value counterpart →
      Agree after (next value) (other counterpart)) :
    Agree after (first >>= next) (twin >>= other) := by
  cases agree with
  | error fault => exact .error fault
  | ok same => exact each _ _ same

end Redaction

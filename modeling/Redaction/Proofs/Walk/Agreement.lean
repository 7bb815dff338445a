import Redaction.Proofs.Rewriting
import Redaction.Walk.Walked

/-!
# Walks that agree

Two notions about walks that fall back at times. A walk leaves a value alone if it changes nothing,
provided that its fallbacks change nothing or none occurs. One walk agrees with another one if it
leads to the same result, where the problems that it misses make no difference or there are none.
Both notions pass from the steps of a walk to the walk.
-/

namespace Redaction

namespace Walked

variable {α β : Type} {lenient : Prop}

/-- A walk leaves a value alone, provided that fallbacks change nothing or none occurs. -/
def LeavesAlone (lenient : Prop) (walked : Walked α) (value : α) : Prop :=
  lenient ∨ walked.problems = [] → walked.value = value

/-- A walk agrees with another one on the value, provided that fallbacks change nothing or the list
of missed problems is empty, and on the problems if this list is empty. -/
structure Agrees (lenient : Prop) (missed : List Problem) (walked thorough : Walked α) : Prop where
  /-- The results are the same. -/
  value : lenient ∨ missed = [] → walked.value = thorough.value
  /-- The problems are the same. -/
  problems : missed = [] → walked.problems = thorough.problems

namespace LeavesAlone

/-- What is not walked is left alone. -/
theorem pure (value : α) : LeavesAlone lenient (Pure.pure value) value := fun _ => rfl

/-- A function of the result. -/
theorem map {walked : Walked α} {value : α} (f : α → β) (alone : LeavesAlone lenient walked value) :
    LeavesAlone lenient (f <$> walked) (f value) := by
  intro calm
  rw [problems_map] at calm
  rw [value_map, alone calm]

/-- One step after the other. -/
theorem bind {walked : Walked α} {value : α} {next : α → Walked β} {result : β}
    (first : LeavesAlone lenient walked value) (second : LeavesAlone lenient (next value) result) :
    LeavesAlone lenient (walked >>= next) result := by
  intro calm
  rw [problems_bind, List.append_eq_nil_iff] at calm
  have same := first (calm.imp_right And.left)
  rw [value_bind, same]
  rw [same] at calm
  exact second (calm.imp_right And.right)

/-- The items of a list. -/
theorem items {step : Tree → Walked Tree} {list : List Tree}
    (each : ∀ item ∈ list, LeavesAlone lenient (step item) item) :
    LeavesAlone lenient (Walked.items step list) list := by
  induction list with
  | nil => exact .pure []
  | cons item rest ih =>
    have later := ih fun other member => each other (List.mem_cons_of_mem _ member)
    exact (each item List.mem_cons_self).bind (later.bind (.pure _))

/-- The values of an object. -/
theorem members {step : Tree → Walked Tree} {list : List (String × Tree)}
    (each : ∀ member ∈ list, LeavesAlone lenient (step member.2) member.2) :
    LeavesAlone lenient (Walked.members step list) list := by
  induction list with
  | nil => exact .pure []
  | cons member rest ih =>
    obtain ⟨key, value⟩ := member
    have later := ih fun other member => each other (List.mem_cons_of_mem _ member)
    exact (each (key, value) List.mem_cons_self).bind (later.bind (.pure _))

/-- The values of one key. -/
theorem atKey {key : String} {step : Tree → Walked (Option Tree)} {list : List (String × Tree)}
    (each : ∀ value, (key, value) ∈ list → LeavesAlone lenient (step value) (some value)) :
    LeavesAlone lenient (Walked.atKey key step list) list := by
  induction list with
  | nil => exact .pure []
  | cons member rest ih =>
    obtain ⟨name, value⟩ := member
    have later := ih fun other present => each other (List.mem_cons_of_mem _ present)
    rw [Walked.atKey]
    by_cases here : name = key
    · subst here
      rw [if_pos rfl]
      exact (each value List.mem_cons_self).bind (later.bind (.pure _))
    · rw [if_neg here]
      exact later.bind (.pure _)

end LeavesAlone

namespace Agrees

variable {missed other : List Problem}

/-- The same walk twice. -/
theorem refl (walked : Walked α) : Agrees lenient missed walked walked :=
  ⟨fun _ => rfl, fun _ => rfl⟩

/-- A value that is not walked, where the other walk would have left it alone. -/
theorem of_leavesAlone {walked : Walked α} {value : α}
    (alone : LeavesAlone lenient walked value) :
    Agrees lenient walked.problems (Pure.pure value) walked :=
  ⟨fun calm => (alone calm).symm, fun calm => calm.symm⟩

/-- A function of the result. -/
theorem map {walked thorough : Walked α} (f : α → β)
    (agrees : Agrees lenient missed walked thorough) :
    Agrees lenient missed (f <$> walked) (f <$> thorough) := by
  refine ⟨fun calm => ?_, fun calm => ?_⟩
  · rw [value_map, value_map, agrees.value calm]
  · rw [problems_map, problems_map, agrees.problems calm]

/-- One step after the other. -/
theorem bind {walked thorough : Walked α} {next follow : α → Walked β}
    (first : Agrees lenient missed walked thorough)
    (second : Agrees lenient other (next thorough.value) (follow thorough.value)) :
    Agrees lenient (missed ++ other) (walked >>= next) (thorough >>= follow) := by
  refine ⟨fun calm => ?_, fun calm => ?_⟩
  · rw [List.append_eq_nil_iff] at calm
    rw [value_bind, value_bind, first.value (calm.imp_right And.left)]
    exact second.value (calm.imp_right And.right)
  · rw [List.append_eq_nil_iff] at calm
    rw [problems_bind, problems_bind, first.problems calm.1, first.value (.inr calm.1),
      second.problems calm.2]

/-- One step after the other, where nothing is missed in the second. -/
theorem bind_pure {walked thorough : Walked α} {f : α → β}
    (first : Agrees lenient missed walked thorough) :
    Agrees lenient missed (walked >>= fun value => Pure.pure (f value))
      (thorough >>= fun value => Pure.pure (f value)) := by
  have both : Agrees lenient (missed ++ []) (walked >>= fun value => Pure.pure (f value))
      (thorough >>= fun value => Pure.pure (f value)) := first.bind (refl _)
  rwa [List.append_nil] at both

/-- The items of a list. -/
theorem items {step thorough : Tree → Walked Tree} {missed : Tree → List Problem}
    {list : List Tree}
    (each : ∀ item ∈ list, Agrees lenient (missed item) (step item) (thorough item)) :
    Agrees lenient (list.flatMap missed) (Walked.items step list)
      (Walked.items thorough list) := by
  induction list with
  | nil => exact refl _
  | cons item rest ih =>
    have later := ih fun other member => each other (List.mem_cons_of_mem _ member)
    exact (each item List.mem_cons_self).bind later.bind_pure

/-- The values of an object. -/
theorem members {step thorough : Tree → Walked Tree} {missed : Tree → List Problem}
    {list : List (String × Tree)}
    (each : ∀ member ∈ list,
      Agrees lenient (missed member.2) (step member.2) (thorough member.2)) :
    Agrees lenient (list.flatMap fun member => missed member.2) (Walked.members step list)
      (Walked.members thorough list) := by
  induction list with
  | nil => exact refl _
  | cons member rest ih =>
    obtain ⟨key, value⟩ := member
    have later := ih fun other member => each other (List.mem_cons_of_mem _ member)
    exact (each (key, value) List.mem_cons_self).bind later.bind_pure

/-- The values of one key. -/
theorem atKey {key : String} {step thorough : Tree → Walked (Option Tree)}
    {missed : Tree → List Problem} {list : List (String × Tree)}
    (each : ∀ value, (key, value) ∈ list →
      Agrees lenient (missed value) (step value) (thorough value)) :
    Agrees lenient (Members.gather key missed list) (Walked.atKey key step list)
      (Walked.atKey key thorough list) := by
  induction list with
  | nil => exact refl _
  | cons member rest ih =>
    obtain ⟨name, value⟩ := member
    have later := ih fun other present => each other (List.mem_cons_of_mem _ present)
    rw [Walked.atKey, Walked.atKey, Members.gather_cons]
    by_cases here : name = key
    · subst here
      rw [if_pos rfl, if_pos rfl, if_pos rfl]
      exact (each value List.mem_cons_self).bind later.bind_pure
    · rw [if_neg here, if_neg here, if_neg here, List.nil_append]
      exact later.bind_pure

end Agrees

end Walked

end Redaction

import Redaction.Walk.Problem

/-!
# Results with problems

Each step of a walk yields a result and the problems that it met. The problems of several steps come
in the order of the steps.
-/

namespace Redaction

/-- The result of a walk and the problems that were met, in order. -/
@[ext] structure Walked (α : Type) where
  /-- The result. -/
  value : α
  /-- The problems. -/
  problems : List Problem
deriving DecidableEq

namespace Walked

instance : Monad Walked where
  pure value := ⟨value, []⟩
  bind step next :=
    let later := next step.value
    ⟨later.value, step.problems ++ later.problems⟩

variable {α β : Type}

/-- A step without problems has its own result. -/
@[simp] theorem value_pure (value : α) : (pure value : Walked α).value = value := rfl

/-- A step without problems has none. -/
@[simp] theorem problems_pure (value : α) : (pure value : Walked α).problems = [] := rfl

/-- The result of two steps is that of the second. -/
@[simp] theorem value_bind (step : Walked α) (next : α → Walked β) :
    (step >>= next).value = (next step.value).value := rfl

/-- The problems of the first step come before those of the second. -/
@[simp] theorem problems_bind (step : Walked α) (next : α → Walked β) :
    (step >>= next).problems = step.problems ++ (next step.value).problems := rfl

/-- A function of the result changes the result. -/
@[simp] theorem value_map (f : α → β) (step : Walked α) : (f <$> step).value = f step.value := rfl

/-- A function of the result leaves the problems alone. -/
@[simp] theorem problems_map (f : α → β) (step : Walked α) :
    (f <$> step).problems = step.problems := List.append_nil _

/-- Walks the items of a list in order. -/
def items (step : Tree → Walked Tree) : List Tree → Walked (List Tree)
  | [] => pure []
  | item :: rest => do
    let item ← step item
    let rest ← items step rest
    pure (item :: rest)

/-- Walks the values of an object in the order of its keys. -/
def members (step : Tree → Walked Tree) : List (String × Tree) → Walked (List (String × Tree))
  | [] => pure []
  | (key, value) :: rest => do
    let value ← step value
    let rest ← members step rest
    pure ((key, value) :: rest)

/-- Walks the value of one key of an object, which may lose the key thereby. -/
def atKey (key : String) (step : Tree → Walked (Option Tree)) :
    List (String × Tree) → Walked (List (String × Tree))
  | [] => pure []
  | (other, value) :: rest =>
    if other = key then do
      let kept ← step value
      let rest ← atKey key step rest
      pure (match kept with
        | some value => (other, value) :: rest
        | none => rest)
    else do
      let rest ← atKey key step rest
      pure ((other, value) :: rest)

/-- Each item is walked by itself. -/
theorem value_items (step : Tree → Walked Tree) (list : List Tree) :
    (items step list).value = list.map fun item => (step item).value := by
  induction list with
  | nil => rfl
  | cons item rest ih => simp [items, ih]

/-- Each item contributes its problems. -/
theorem problems_items (step : Tree → Walked Tree) (list : List Tree) :
    (items step list).problems = list.flatMap fun item => (step item).problems := by
  induction list with
  | nil => rfl
  | cons item rest ih => simp [items, ih]

/-- Each value is walked by itself. -/
theorem value_members (step : Tree → Walked Tree) (list : List (String × Tree)) :
    (members step list).value = Members.mapValues (fun value => (step value).value) list := by
  induction list with
  | nil => rfl
  | cons member rest ih => simp [members, ih, Members.mapValues]

/-- Each value contributes its problems. -/
theorem problems_members (step : Tree → Walked Tree) (list : List (String × Tree)) :
    (members step list).problems = list.flatMap fun member => (step member.2).problems := by
  induction list with
  | nil => rfl
  | cons member rest ih => simp [members, ih]

end Walked

end Redaction

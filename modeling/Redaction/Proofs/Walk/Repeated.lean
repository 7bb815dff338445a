import Mathlib.Order.Lattice
import Redaction.Proofs.Walk.Outcome

/-!
# Walks one after the other

The rules for unknown data are ordered by how much they take away. A walk of what another walk has
left, under the same schema and with the same fallback, makes the same of it as a single walk with
the rule that takes away more. In particular a second walk with the same rule changes nothing.
-/

namespace Redaction

open Schema Redaction.Tree

namespace UnknownFields

/-- How much a rule takes away. -/
def rank : UnknownFields → Nat
  | .keep => 0
  | .strip => 1
  | .drop => 2

instance : LinearOrder UnknownFields where
  le a b := a.rank ≤ b.rank
  le_refl a := Nat.le_refl a.rank
  le_trans a b c := Nat.le_trans
  le_antisymm a b := by cases a <;> cases b <;> decide
  le_total a b := Nat.le_total a.rank b.rank
  toDecidableLE a b := inferInstanceAs (Decidable (a.rank ≤ b.rank))

variable {first second : UnknownFields}

/-- The greater of two rules removes unknown data if one of them does. -/
theorem max_eq_drop_iff : max first second = .drop ↔ first = .drop ∨ second = .drop := by
  cases first <;> cases second <;> decide

/-- The greater of two rules keeps unknown data if both do. -/
theorem max_eq_keep_iff : max first second = .keep ↔ first = .keep ∧ second = .keep := by
  cases first <;> cases second <;> decide

/-- No other rule takes away as little as keeping. -/
theorem eq_keep_of_le (least : first ≤ .keep) : first = .keep := by
  revert least
  cases first <;> decide

/-- Keeping adds nothing to a rule. -/
theorem keep_max : max .keep second = second := by cases second <;> rfl

/-- A rule gains nothing from keeping. -/
theorem max_keep : max first .keep = first := by cases first <;> rfl

end UnknownFields

namespace Walker

/-- The walker with another rule for unknown data. Only if it is kept are messages left alone. -/
def inMode (walker : Walker) (mode : UnknownFields) : Walker :=
  { walker with unknownFields := mode, cleared := if mode = .keep then walker.cleared else [] }

/-- Walkers of configurations that differ in the rule for unknown data differ in their mode. -/
theorem ofConfig_inMode (registry : Registry) (config : Config) (additional : AdditionalNames)
    (mode : UnknownFields) :
    ofConfig registry { config with unknownFields := mode } additional =
      (ofConfig registry { config with unknownFields := .keep } additional).inMode mode := by
  cases mode <;> rfl

variable {walker : Walker} {place : Place} {tree : Tree} {first second mode : UnknownFields}

/-- Messages are left alone only if unknown data is kept. -/
theorem leaves_inMode_iff :
    (walker.inMode mode).leaves place = true ↔ mode = .keep ∧ walker.leaves place = true := by
  cases mode <;> cases place <;> simp [leaves, skips, inMode]

/-- What stands under an undeclared name is removed, and only under the greatest rule. -/
theorem verdict_inMode_eq_drop_iff :
    (walker.inMode mode).verdict place tree = .drop ↔ mode = .drop ∧ place.stray tree = true := by
  rw [verdict_eq_drop_iff, loses, Bool.and_eq_true, and_comm]
  cases mode <;> simp [onUnknown, inMode]

/-- Where unknown data is not kept, nothing is left alone. -/
theorem leaves_inMode_of_ne_keep (known : mode ≠ .keep) :
    (walker.inMode mode).leaves place = false :=
  eq_false_of_ne_true fun left => known (leaves_inMode_iff.mp left).1

/-- Where a value is taken out, it is so, or is removed, under each rule that takes away more. -/
theorem verdict_inMode_of_strip (strips : (walker.inMode first).verdict place tree = .strip)
    (more : first ≤ mode) :
    (walker.inMode mode).verdict place tree = .strip ∨
      (walker.inMode mode).verdict place tree = .drop := by
  by_cases framed : place.framed = true
  · have entered : (walker.inMode first).leaves place = false :=
      eq_false_of_ne_true fun left => nomatch strips.symm.trans (verdict_of_leaves left tree)
    have still : (walker.inMode mode).leaves place = false := by
      refine eq_false_of_ne_true fun left => ?_
      obtain ⟨rfl, left⟩ := leaves_inMode_iff.mp left
      have also := leaves_inMode_iff.mpr ⟨UnknownFields.eq_keep_of_le more, left⟩
      exact nomatch entered.symm.trans also
    have wrong : place.accepts tree = false :=
      accepts_eq_false entered (by simp [strips]) (by simp [strips])
    rw [verdict_of_misfit framed entered wrong] at strips
    rw [verdict_of_misfit framed still wrong]
    exact .inl strips
  · cases place with
    | secret => exact .inl rfl
    | missing typeName => exact .inl strips
    | free => cases strips
    | unknown =>
      cases first with
      | keep => cases strips
      | drop => cases strips
      | strip =>
        cases mode with
        | keep => exact absurd more (by decide)
        | strip => exact .inl rfl
        | drop => exact .inr rfl
    | _ => exact absurd rfl framed

/-- Where a value is kept although unknown data is not, it is kept under each rule. -/
theorem verdict_inMode_of_keep (keeps : (walker.inMode first).verdict place tree = .keep)
    (known : first ≠ .keep) (mode : UnknownFields) :
    (walker.inMode mode).verdict place tree = .keep := by
  by_cases framed : place.framed = true
  · have entered : (walker.inMode first).leaves place = false := leaves_inMode_of_ne_keep known
    have wrong : place.accepts tree = false :=
      accepts_eq_false entered (by simp [keeps]) (by simp [keeps])
    rw [verdict_of_misfit framed entered wrong] at keeps
    by_cases left : (walker.inMode mode).leaves place = true
    · exact verdict_of_leaves left tree
    · rw [verdict_of_misfit framed (eq_false_of_ne_true left) wrong]
      exact keeps
  · cases place with
    | secret => cases keeps
    | missing typeName => exact keeps
    | free => rfl
    | unknown =>
      cases first with
      | keep => exact absurd rfl known
      | strip => cases keeps
      | drop => cases keeps
    | _ => exact absurd rfl framed

/-- What is removed under a rule is removed under each greater rule. -/
theorem verdict_max_of_drop (drops : (walker.inMode first).verdict place tree = .drop) :
    (walker.inMode (max first second)).verdict place tree = .drop := by
  obtain ⟨dropped, stray⟩ := verdict_inMode_eq_drop_iff.mp drops
  exact verdict_inMode_eq_drop_iff.mpr ⟨UnknownFields.max_eq_drop_iff.mpr (.inl dropped), stray⟩

/-- What the first walk does not remove, the second removes exactly if one walk with the greater
rule does. -/
theorem removed_next_iff (stays : (walker.inMode first).verdict place tree ≠ .drop) :
    (walker.inMode second).verdict place ((walker.inMode first).outcome place tree) = .drop ↔
      (walker.inMode (max first second)).verdict place tree = .drop := by
  rw [verdict_inMode_eq_drop_iff, verdict_inMode_eq_drop_iff, UnknownFields.max_eq_drop_iff,
    stray_outcome stays]
  have known : first = .drop → place.stray tree ≠ true := fun dropped stray =>
    stays (verdict_inMode_eq_drop_iff.mpr ⟨dropped, stray⟩)
  constructor
  · exact fun ⟨dropped, stray⟩ => ⟨.inr dropped, stray⟩
  · exact fun ⟨either, stray⟩ => ⟨either.resolve_left fun dropped => known dropped stray, stray⟩

/-- What the second walk does not leave alone is not left alone under the greater rule. -/
theorem leaves_max (entered : (walker.inMode second).leaves place = false) :
    (walker.inMode (max first second)).leaves place = false := by
  refine eq_false_of_ne_true fun left => ?_
  obtain ⟨lowest, left⟩ := leaves_inMode_iff.mp left
  have also := leaves_inMode_iff.mpr ⟨(UnknownFields.max_eq_keep_iff.mp lowest).2, left⟩
  exact nomatch entered.symm.trans also

/-- On a value that the first walk enters, the second walk comes to the verdict of one walk with the
greater rule, unless it leaves the value alone. -/
theorem verdict_next (enters : (walker.inMode first).verdict place tree = .enter)
    (entered : (walker.inMode second).leaves place = false) :
    (walker.inMode second).verdict place ((walker.inMode first).outcomeInside place tree) =
      (walker.inMode (max first second)).verdict place tree := by
  have removed : (walker.inMode second).verdict place ((walker.inMode first).outcome place tree) =
      .drop ↔ _ := removed_next_iff fun drops => nomatch enters.symm.trans drops
  rw [outcome_of_verdict enters, Verdict.apply] at removed
  have accepted := (verdict_eq_enter_iff.mp enters).2.1
  rcases verdict_of_accepts (leaves_max entered) accepted with drops | goesOn
  · rw [drops]
    exact removed.mpr drops
  · rw [goesOn]
    refine (verdict_of_accepts entered (accepts_outcomeInside enters)).resolve_left fun drops => ?_
    exact nomatch goesOn.symm.trans (removed.mp drops)

/-- If two walks make the same of a value as one walk with the greater rule, they keep the same. -/
theorem kept_kept
    (same : (walker.inMode second).outcome place ((walker.inMode first).outcome place tree) =
      (walker.inMode (max first second)).outcome place tree) :
    ((walker.inMode first).kept place tree).bind ((walker.inMode second).kept place) =
      (walker.inMode (max first second)).kept place tree := by
  by_cases drops : (walker.inMode first).verdict place tree = .drop
  · rw [kept, if_pos drops, kept, if_pos (verdict_max_of_drop drops), Option.bind_none]
  · rw [kept, if_neg drops, Option.bind_some, kept, kept, same]
    exact if_congr (removed_next_iff drops) rfl rfl

/-- What two walks make of a value one after the other is what one walk with the greater rule makes
of it. -/
theorem outcome_outcome (first second : UnknownFields) (place : Place) (tree : Tree) :
    (walker.inMode second).outcome place ((walker.inMode first).outcome place tree) =
      (walker.inMode (max first second)).outcome place tree := by
  induction tree using inductionHeld generalizing place with
  | step tree ih =>
    cases verdict : (walker.inMode first).verdict place tree with
    | drop =>
      rw [outcome_of_verdict verdict, outcome_of_verdict (verdict_max_of_drop verdict)]
      exact outcome_stripped place
    | strip =>
      rw [outcome_of_verdict verdict]
      refine (outcome_stripped place).trans ?_
      rcases verdict_inMode_of_strip verdict (le_max_left first second) with also | also
      · exact (outcome_of_verdict also).symm
      · exact (outcome_of_verdict also).symm
    | keep =>
      by_cases known : first = .keep
      · subst known
        rw [outcome_of_verdict verdict, UnknownFields.keep_max]
        rfl
      · have still := verdict_inMode_of_keep verdict known
        rw [outcome_of_verdict verdict, outcome_of_verdict (still (max first second))]
        exact outcome_of_verdict (still second)
    | enter =>
      rw [outcome_of_verdict verdict, Verdict.apply]
      by_cases left : (walker.inMode second).leaves place = true
      · -- the second walk keeps unknown data, so the rule of the first is the greater one
        obtain ⟨rfl, _⟩ := leaves_inMode_iff.mp left
        rw [outcome_of_leaves left, UnknownFields.max_keep, outcome_of_verdict verdict]
        rfl
      · have entered := eq_false_of_ne_true left
        have same := verdict_next verdict entered
        have accepted := (verdict_eq_enter_iff.mp verdict).2.1
        rcases verdict_of_accepts (leaves_max entered) accepted with drops | enters
        · rw [outcome_of_verdict drops, outcome_of_verdict (same.trans drops)]
          rfl
        · rw [outcome_of_verdict enters, outcome_of_verdict (same.trans enters), Verdict.apply,
            Verdict.apply]
          refine inside_inside.trans ?_
          refine inside_congr (fun part held => ih part held place.item) fun key part held => ?_
          exact kept_kept (ih part held (walker.under place key))

/-- A second walk with the same configuration changes nothing. -/
theorem outcome_ofConfig_idem (registry : Registry) (config : Config) (additional : AdditionalNames)
    (place : Place) (tree : Tree) :
    (ofConfig registry config additional).outcome place
        ((ofConfig registry config additional).outcome place tree) =
      (ofConfig registry config additional).outcome place tree := by
  have same := ofConfig_inMode registry config additional config.unknownFields
  rw [same, outcome_outcome, max_self]

/-- Walks compose as the maximum of their rules for unknown data. What a walk makes of the tree that
another walk has left, with the same types, names and fallback, is what a single walk with the
greater rule makes of the first tree. In particular a second walk with the same configuration
changes nothing. -/
theorem walk_of_walk (registry : Registry) (apart : registry.KeysApart) (config : Config)
    (additional : AdditionalNames) (first second : UnknownFields) (reference : String)
    (tree : Tree) :
    let walk := fun (mode : UnknownFields) (tree : Tree) =>
      ((ofConfig registry { config with unknownFields := mode } additional).walkRoot reference
        tree).value
    walk second (walk first tree) = walk (max first second) tree ∧
      walk first (walk first tree) = walk first tree := by
  intro walk
  have described : ∀ mode tree, walk mode tree =
      ((ofConfig registry { config with unknownFields := .keep } additional).inMode mode).outcome
        (registry.placeOfRoot reference) tree := by
    intro mode tree
    have known : walk mode tree = _ := value_walkRoot_eq_outcome apart reference tree
    rw [known, ofConfig_inMode]
    rfl
  simp only [described, outcome_outcome, max_self, and_self]

/-- A type with a secret. -/
def seat : Message :=
  .ofDeclarations "show.Seat" [.field (.scalar "row"), .field (.secret (.scalar "code"))]

/-- A type with seats and a group, one of whose alternatives refers to a missing type. -/
def ticket : Message :=
  .ofDeclarations "show.Ticket"
    [.field (.repeated (.message "seats" ".show.Seat")),
      .oneof "payment" [.scalar "cash", .message "card" "show.Card"]]

/-- With these types, what a walk that takes out unknown data has left stays as it is where such
data is kept, and loses the unknown keys where they are removed. -/
theorem walk_of_walk_ticket :
    let registry : Registry := .ofList [ticket, seat]
    let walk := fun (mode : UnknownFields) (tree : Tree) =>
      ((ofConfig registry { fallback := .passthrough, unknownFields := mode } .empty).walkRoot
        "show.Ticket" tree).value
    let tree : Tree := .object [("note", .string "n"), ("payment", .object [("voucher", .bool true)]),
      ("seats", .list [.object [("code", .string "c"), ("row", .string "r")], .bool true])]
    registry.KeysApart ∧
      walk .keep (walk .strip tree) =
        .object [("note", .stripped), ("payment", .object [("voucher", .stripped)]),
          ("seats", .list [.object [("code", .stripped), ("row", .string "r")], .bool true])] ∧
      walk .drop (walk .strip tree) =
        .object [("seats", .list [.object [("code", .stripped), ("row", .string "r")],
          .bool true])] := by
  intro registry walk tree
  have apart : registry.KeysApart := by decide
  refine ⟨apart, ?_, ?_⟩
  · refine (walk_of_walk registry apart { fallback := .passthrough } .empty .strip .keep
      "show.Ticket" tree).1.trans ?_
    decide
  · refine (walk_of_walk registry apart { fallback := .passthrough } .empty .strip .drop
      "show.Ticket" tree).1.trans ?_
    decide

end Walker

end Redaction

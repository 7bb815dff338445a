import Redaction.Proofs.Schema.Place
import Redaction.Proofs.Tree.Inside

/-!
# What is done with the value at a place

At each place a walk decides what to do with the value there: to remove it, to take it out, to keep
it, or to walk what lies inside it. The decision depends on the place and on the outermost form of
the value. So what becomes of a tree is described by recursion on the tree, without a bound and
without passes.
-/

namespace Redaction

open Schema Redaction.Tree

/-- Whether a tree stands for a value that is missing or has been taken out. -/
def Tree.isVacant : Tree → Bool
  | .null | .stripped => true
  | _ => false

/-- What a walk does with the value at a place. -/
inductive Verdict where
  /-- The value is removed together with its key. -/
  | drop
  /-- The value is taken out. -/
  | strip
  /-- The value stays as it is. -/
  | keep
  /-- What lies inside the value is walked. -/
  | enter
deriving DecidableEq, Repr

/-- What becomes of a value, given what becomes of it if it is entered. A value that is removed
leaves nothing. -/
def Verdict.apply (verdict : Verdict) (value entered : Tree) : Tree :=
  match verdict with
  | .drop | .strip => .stripped
  | .keep => value
  | .enter => entered

namespace Walker

variable (walker : Walker)

/-- What is done with a value that does not fit the schema. -/
def onMisfit : Verdict :=
  match walker.fallback with
  | .strip => .strip
  | .passthrough => .keep

/-- What is done with a value that the schema does not mention. -/
def onUnknown : Verdict :=
  match walker.unknownFields with
  | .drop => .drop
  | .strip => .strip
  | .keep => .keep

/-- What lies under a key of the value at a place. -/
def under (place : Place) (key : String) : Place :=
  walker.registry.under walker.policy place key

/-- Whether the messages at a place are left alone. -/
def leaves : Place → Bool
  | .message type | .list type | .map type => walker.skips type
  | _ => false

/-- Whether the value at a place goes because it, or its alternative, is unknown. -/
def loses (place : Place) (tree : Tree) : Bool := place.stray tree && walker.onUnknown == .drop

/-- What is done with a tree at a place. -/
def verdict (place : Place) (tree : Tree) : Verdict :=
  match place with
  | .secret => .strip
  | .free => .keep
  | .missing _ => walker.onMisfit
  | .unknown => walker.onUnknown
  | .message _ | .list _ | .map _ | .group _ _ =>
    if walker.leaves place then .keep
    else if place.accepts tree then if walker.loses place tree then .drop else .enter
    else if tree.isVacant then .keep
    else walker.onMisfit

mutual

/-- What a walk makes of a tree at a place. -/
def outcome (place : Place) : Tree → Tree
  | .list items =>
    (walker.verdict place (.list items)).apply (.list items) (.list (outcomeItems place.item items))
  | .object members =>
    (walker.verdict place (.object members)).apply (.object members)
      (.object (outcomeMembers place members))
  | leaf => (walker.verdict place leaf).apply leaf leaf

/-- What a walk makes of the items of a list, all at the same place. -/
def outcomeItems (place : Place) : List Tree → List Tree
  | [] => []
  | item :: rest => outcome place item :: outcomeItems place rest

/-- What a walk makes of the members of the object at a place. -/
def outcomeMembers (place : Place) : List (String × Tree) → List (String × Tree)
  | [] => []
  | (key, value) :: rest =>
    if walker.verdict (walker.under place key) value = .drop then outcomeMembers place rest
    else (key, outcome (walker.under place key) value) :: outcomeMembers place rest

end

/-- What a walk makes of the value of a key at a place; none if it is removed. -/
def kept (place : Place) (tree : Tree) : Option Tree :=
  if walker.verdict place tree = .drop then none else some (walker.outcome place tree)

/-- What a walk makes of what lies inside a tree at a place. -/
def outcomeInside (place : Place) (tree : Tree) : Tree :=
  tree.inside (walker.outcome place.item) fun key value =>
    walker.kept (walker.under place key) value

variable {walker} {place : Place} {tree : Tree}

/-- Items are walked one by one. -/
theorem outcomeItems_eq_map (items : List Tree) :
    walker.outcomeItems place items = items.map (walker.outcome place) := by
  induction items with
  | nil => rfl
  | cons item rest ih => rw [outcomeItems, ih, List.map_cons]

/-- Members are walked one by one, each value at the place of its key. -/
theorem outcomeMembers_eq_rewrite (members : List (String × Tree)) :
    walker.outcomeMembers place members =
      Members.rewrite (fun key value => walker.kept (walker.under place key) value) members := by
  induction members with
  | nil => rfl
  | cons member rest ih =>
    obtain ⟨key, value⟩ := member
    rw [outcomeMembers, Members.rewrite_cons, ih, kept]
    split <;> rfl

/-- What becomes of a tree follows from the verdict and from what becomes of what lies inside. -/
theorem outcome_eq (place : Place) (tree : Tree) :
    walker.outcome place tree =
      (walker.verdict place tree).apply tree (walker.outcomeInside place tree) := by
  cases tree with
  | list items => rw [outcome, outcomeItems_eq_map, outcomeInside, Tree.inside]
  | object members => rw [outcome, outcomeMembers_eq_rewrite, outcomeInside, Tree.inside]
  | _ => rfl

/-- A verdict that is known decides what becomes of the tree. -/
theorem outcome_of_verdict {verdict : Verdict} (known : walker.verdict place tree = verdict) :
    walker.outcome place tree = verdict.apply tree (walker.outcomeInside place tree) :=
  known ▸ outcome_eq place tree

/-- What is kept is the outcome, unless the value is removed. -/
theorem kept_eq_some_iff {remaining : Tree} :
    walker.kept place tree = some remaining ↔
      walker.verdict place tree ≠ .drop ∧ walker.outcome place tree = remaining := by
  rw [kept, Option.ite_none_left_eq_some, Option.some.injEq]

/-- What shows in an outcome shows in a value that is kept or in what becomes of what lies
inside. -/
theorem shows_outcome_iff {path : List Step} {leaf : Tree} :
    (walker.outcome place tree).Shows path leaf ↔
      walker.verdict place tree = .keep ∧ tree.Shows path leaf ∨
        walker.verdict place tree = .enter ∧
          (walker.outcomeInside place tree).Shows path leaf := by
  rw [outcome_eq]
  cases walker.verdict place tree <;> simp [Verdict.apply, not_shows_stripped]

/-- A value in whose outcome something shows is not removed. -/
theorem kept_of_shows {path : List Step} {leaf : Tree}
    (shows : (walker.outcome place tree).Shows path leaf) :
    walker.kept place tree = some (walker.outcome place tree) := by
  refine kept_eq_some_iff.mpr ⟨fun drops => ?_, rfl⟩
  rcases shows_outcome_iff.mp shows with ⟨keeps, _⟩ | ⟨enters, _⟩
  · exact nomatch drops.symm.trans keeps
  · exact nomatch drops.symm.trans enters

/-- What has been taken out stays so. -/
@[simp] theorem outcome_stripped (place : Place) : walker.outcome place .stripped = .stripped := by
  rw [outcome_eq]
  cases walker.verdict place .stripped <;> rfl

/-- Where the schema describes what is inside, one rule gives all verdicts. -/
theorem verdict_of_framed (framed : place.framed = true) (tree : Tree) :
    walker.verdict place tree =
      if walker.leaves place then .keep
      else if place.accepts tree then if walker.loses place tree then .drop else .enter
      else if tree.isVacant then .keep
      else walker.onMisfit := by
  cases place with
  | message | list | map | group => rfl
  | _ => cases framed

/-- A value that does not fit is never removed. -/
theorem onMisfit_ne_drop : walker.onMisfit ≠ .drop := by
  unfold onMisfit
  cases walker.fallback <;> simp

/-- What may be removed is never left alone. -/
theorem leaves_of_removable (removable : place.removable = true) : walker.leaves place = false := by
  cases place with
  | unknown | group => rfl
  | _ => cases removable

/-- A value is removed exactly if it, or its alternative, is unknown and unknown data is removed. -/
theorem verdict_eq_drop_iff :
    walker.verdict place tree = .drop ↔ walker.loses place tree = true := by
  by_cases framed : place.framed = true
  · rw [verdict_of_framed framed]
    cases loses : walker.loses place tree with
    | true =>
      have stray := (Bool.and_eq_true_iff.mp loses).1
      rw [leaves_of_removable (Place.removable_of_stray stray), Place.accepts_of_stray framed stray]
      simp
    | false =>
      refine iff_of_false ?_ Bool.false_ne_true
      split_ifs with left accepted impossible vacant
      · exact nofun
      · cases impossible
      · exact nofun
      · exact nofun
      · exact onMisfit_ne_drop
  · cases place with
    | unknown => simp [verdict, loses, Place.stray]
    | secret | free => simp [verdict, loses, Place.stray]
    | missing typeName => simp [verdict, loses, Place.stray, onMisfit_ne_drop]
    | _ => exact absurd rfl framed

/-- A value that does not fit is not entered. -/
theorem onMisfit_ne_enter : walker.onMisfit ≠ .enter := by
  unfold onMisfit
  cases walker.fallback <;> simp

/-- A value that is not declared is not entered. -/
theorem onUnknown_ne_enter : walker.onUnknown ≠ .enter := by
  unfold onUnknown
  cases walker.unknownFields <;> simp

/-- A value is entered if it has the form that its place needs, unless it is left alone or goes. -/
theorem verdict_eq_enter_iff :
    walker.verdict place tree = .enter ↔ walker.leaves place = false ∧
      place.accepts tree = true ∧ walker.loses place tree = false := by
  by_cases framed : place.framed = true
  · rw [verdict_of_framed framed]
    split_ifs with left accepted goes vacant
    · simp [left]
    · simp [goes]
    · simp [left, accepted, goes]
    · simp [accepted]
    · simp [accepted, onMisfit_ne_enter]
  · refine iff_of_false ?_ fun enters => framed (Place.framed_of_accepts enters.2.1)
    cases place with
    | secret | free => exact nofun
    | missing typeName => exact onMisfit_ne_enter
    | unknown => exact onUnknown_ne_enter
    | _ => exact absurd rfl framed

/-- A value of the form that its place needs is removed or entered, unless it is left alone. -/
theorem verdict_of_accepts (entered : walker.leaves place = false)
    (accepted : place.accepts tree = true) :
    walker.verdict place tree = .drop ∨ walker.verdict place tree = .enter := by
  cases goes : walker.loses place tree with
  | true => exact .inl (verdict_eq_drop_iff.mpr goes)
  | false => exact .inr (verdict_eq_enter_iff.mpr ⟨entered, accepted, goes⟩)

/-- A value that is neither entered nor removed has not the form that its place needs, unless it is
left alone. -/
theorem accepts_eq_false (entered : walker.leaves place = false)
    (stays : walker.verdict place tree ≠ .drop) (closed : walker.verdict place tree ≠ .enter) :
    place.accepts tree = false :=
  eq_false_of_ne_true fun accepted => (verdict_of_accepts entered accepted).elim stays closed

/-- Only what is unknown, or a group, may be removed. -/
theorem kept_of_not_removable (stays : place.removable = false) (tree : Tree) :
    walker.kept place tree = some (walker.outcome place tree) := by
  refine kept_eq_some_iff.mpr ⟨fun drops => ?_, rfl⟩
  have stray := (Bool.and_eq_true_iff.mp (verdict_eq_drop_iff.mp drops)).1
  rw [Place.removable_of_stray stray] at stays
  cases stays

/-- A value of the wrong form stays if it is vacant, and else does not fit. -/
theorem verdict_of_misfit (framed : place.framed = true) (entered : walker.leaves place = false)
    (wrong : place.accepts tree = false) :
    walker.verdict place tree = if tree.isVacant then .keep else walker.onMisfit := by
  rw [verdict_of_framed framed, entered, wrong]
  rfl

/-- A vacant value of the wrong form is kept. -/
theorem kept_of_vacant (framed : place.framed = true) (entered : walker.leaves place = false)
    (wrong : place.accepts tree = false) (vacant : tree.isVacant = true) :
    walker.kept place tree = some tree := by
  have keeps : walker.verdict place tree = .keep := by
    rw [verdict_of_misfit framed entered wrong, if_pos vacant]
  rw [kept, outcome_of_verdict keeps, keeps]
  rfl

/-- What is kept of another value of the wrong form follows from the rule for such values. -/
theorem kept_of_misfit (framed : place.framed = true) (entered : walker.leaves place = false)
    (wrong : place.accepts tree = false) (occupied : tree.isVacant = false) (inside : Tree) :
    walker.kept place tree = some (walker.onMisfit.apply tree inside) := by
  have misfit : walker.verdict place tree = walker.onMisfit := by
    rw [verdict_of_misfit framed entered wrong, occupied, if_neg Bool.false_ne_true]
  rw [kept, outcome_of_verdict misfit, misfit, if_neg onMisfit_ne_drop]
  unfold onMisfit
  cases walker.fallback <;> rfl

/-- Only where the schema describes what is inside is a value left alone. -/
theorem framed_of_leaves (left : walker.leaves place = true) : place.framed = true := by
  cases place with
  | message | list | map => rfl
  | _ => cases left

/-- What is left alone is kept. -/
theorem verdict_of_leaves (left : walker.leaves place = true) (tree : Tree) :
    walker.verdict place tree = .keep := by
  rw [verdict_of_framed (framed_of_leaves left), if_pos left]

/-- Messages that are left alone stay as they are. -/
theorem outcome_of_leaves (left : walker.leaves place = true) (tree : Tree) :
    walker.outcome place tree = tree := outcome_of_verdict (verdict_of_leaves left tree)

/-- Where messages of a type are left alone, so are lists and maps of them. -/
theorem leaves_ofMessages {type : Message} (cardinality : Cardinality)
    (skips : walker.skips type = true) :
    walker.leaves (.ofMessages type cardinality) = true := by
  cases cardinality <;> exact skips

/-- A value that is entered becomes what becomes of what lies inside. -/
theorem outcome_of_accepts (entered : walker.leaves place = false)
    (accepted : place.accepts tree = true) (stays : walker.loses place tree = false) :
    walker.outcome place tree = walker.outcomeInside place tree :=
  outcome_of_verdict (verdict_eq_enter_iff.mpr ⟨entered, accepted, stays⟩)

/-- What is kept of a value that is entered is what becomes of what lies inside. -/
theorem kept_of_accepts (entered : walker.leaves place = false)
    (accepted : place.accepts tree = true) (stays : walker.loses place tree = false) :
    walker.kept place tree = some (walker.outcomeInside place tree) := by
  have verdict := verdict_eq_enter_iff.mpr ⟨entered, accepted, stays⟩
  refine kept_eq_some_iff.mpr ⟨fun drops => ?_, outcome_of_verdict verdict⟩
  exact nomatch verdict.symm.trans drops

/-- Nothing is kept of a value that goes. -/
theorem kept_of_loses (loses : walker.loses place tree = true) : walker.kept place tree = none :=
  if_pos (verdict_eq_drop_iff.mpr loses)

section Group

variable {message : Message} {group active : String}

/-- A group goes if its alternative is undeclared and unknown data is removed. -/
theorem loses_group (inner : Tree) :
    walker.loses (.group message group) (.object [(active, inner)]) =
      ((message.alternative? group active).isNone && walker.onUnknown == .drop) := rfl

/-- A group with a declared alternative keeps it. -/
theorem kept_group_of_alternative? {field : Field}
    (declared : message.alternative? group active = some field) (inner : Tree) :
    walker.kept (.group message group) (.object [(active, inner)]) =
      some (.object [(active,
        walker.outcome (walker.registry.placeOf walker.policy field) inner)]) := by
  have stays : walker.loses (.group message group) (.object [(active, inner)]) = false := by
    rw [loses_group, declared, Option.isNone_some, Bool.false_and]
  have place : walker.under (.group message group) active =
      walker.registry.placeOf walker.policy field := Registry.under_group_of_alternative? declared
  rw [kept_of_accepts rfl rfl stays, outcomeInside, Tree.inside, Members.rewrite_cons, place,
    kept_of_not_removable (Registry.removable_placeOf field)]
  rfl

/-- A group with an unknown alternative goes if unknown data is removed. -/
theorem kept_group_of_unknown (unknown : message.alternative? group active = none) (inner : Tree) :
    walker.kept (.group message group) (.object [(active, inner)]) =
      if walker.onUnknown = .drop then none
      else some (.object [(active, walker.outcome .unknown inner)]) := by
  have place : walker.under (.group message group) active = .unknown :=
    Registry.under_group_of_unknown unknown
  cases drops : walker.onUnknown == .drop with
  | true =>
    have loses : walker.loses (.group message group) (.object [(active, inner)]) = true := by
      rw [loses_group, drops, unknown]
      rfl
    rw [kept_of_loses loses, if_pos (eq_of_beq drops)]
  | false =>
    have stays : walker.loses (.group message group) (.object [(active, inner)]) = false := by
      rw [loses_group, drops, Bool.and_false]
    have remains : walker.onUnknown ≠ .drop := ne_of_beq_false drops
    rw [kept_of_accepts rfl rfl stays, outcomeInside, Tree.inside, Members.rewrite_cons, place,
      kept, verdict, if_neg remains, if_neg remains]
    rfl

/-- A group that is entered keeps its alternative. -/
theorem exists_outcomeInside_group (inner : Tree)
    (stays : walker.loses (.group message group) (.object [(active, inner)]) = false) :
    ∃ part, walker.outcomeInside (.group message group) (.object [(active, inner)]) =
      .object [(active, part)] := by
  have entered : walker.kept (.group message group) (.object [(active, inner)]) = some _ :=
    kept_of_accepts rfl rfl stays
  cases declared : message.alternative? group active with
  | some field =>
    rw [kept_group_of_alternative? declared] at entered
    exact ⟨_, (Option.some.inj entered).symm⟩
  | none =>
    rw [kept_group_of_unknown declared] at entered
    split at entered
    · cases entered
    · exact ⟨_, (Option.some.inj entered).symm⟩

end Group

/-- A value that is entered keeps the form that its place needs. -/
theorem accepts_outcomeInside (enters : walker.verdict place tree = .enter) :
    place.accepts (walker.outcomeInside place tree) = true := by
  obtain ⟨_, accepted, stays⟩ := verdict_eq_enter_iff.mp enters
  unfold Place.accepts at accepted
  split at accepted
  · rfl
  · rfl
  · rfl
  · obtain ⟨part, same⟩ := exists_outcomeInside_group _ stays
    rw [same]
    rfl
  · cases accepted

/-- A walk that does not remove a value changes nothing in whether it, or its alternative, is
unknown. -/
theorem stray_outcome (stays : walker.verdict place tree ≠ .drop) :
    place.stray (walker.outcome place tree) = place.stray tree := by
  cases verdict : walker.verdict place tree with
  | drop => exact absurd verdict stays
  | keep => exact congrArg place.stray (outcome_of_verdict verdict)
  | strip =>
    rw [outcome_of_verdict verdict]
    cases place with
    | group type owner =>
      have wrong : (Place.group type owner).accepts tree = false :=
        accepts_eq_false rfl stays (by simp [verdict])
      have plain : (Place.group type owner).stray tree ≠ true := fun stray =>
        nomatch wrong.symm.trans (Place.accepts_of_stray rfl stray)
      exact (eq_false_of_ne_true plain).symm
    | _ => rfl
  | enter =>
    rw [outcome_of_verdict verdict]
    obtain ⟨_, accepted, entered⟩ := verdict_eq_enter_iff.mp verdict
    cases place with
    | group type owner =>
      match tree with
      | .object [(active, inner)] =>
        obtain ⟨part, same⟩ := exists_outcomeInside_group inner entered
        simp only [Verdict.apply, same, Place.stray]
      | .null | .stripped | .bool _ | .number _ | .string _ | .list _ | .object []
      | .object (_ :: _ :: _) => cases accepted
    | _ => simp only [Place.stray]

end Walker

end Redaction

import Redaction.Proofs.Walk.Handed

/-!
# Where problems are met

Each problem of a walk belongs to a place: the path to the part of the tree that does not fit. The
places are listed here in the order of the walk. What does not fit is not looked into, so the places
are apart from each other, and they are the parts that the walk reaches and that do not fit.
-/

namespace Redaction

open Schema Redaction.Tree

/-- A problem and the path to the part of the tree that has it. -/
structure Report where
  /-- The path. -/
  path : List Step
  /-- The problem. -/
  problem : Problem
deriving DecidableEq

/-- The report of a part as one of the whole, in which some steps lead to the part. -/
def Report.below (steps : List Step) (report : Report) : Report :=
  { report with path := steps ++ report.path }

namespace Walker

/-- The reports of a walk in order. -/
def reports (walker : Walker) (task : Task) (tree : Tree) : List Report :=
  match walker.registry.misfit? walker.policy task tree with
  | some problem => [⟨[], problem⟩]
  | none =>
    (walker.handed task tree).attach.flatMap fun next =>
      (walker.reports next.1.task next.1.part).map (.below next.1.steps)
  termination_by weight task tree
  decreasing_by exact weight_lt_of_mem_handed next.2

variable {walker : Walker} {task : Task} {tree : Tree} {problem : Problem} {path : List Step}

/-- A value that does not fit is reported itself. -/
theorem reports_of_misfit
    (misfit : walker.registry.misfit? walker.policy task tree = some problem) :
    walker.reports task tree = [⟨[], problem⟩] := by
  rw [reports, misfit]

/-- If a value fits, its parts are reported one after the other. -/
theorem reports_of_fits (fits : walker.registry.misfit? walker.policy task tree = none) :
    walker.reports task tree = (walker.handed task tree).flatMap fun next =>
      (walker.reports next.task next.part).map (.below next.steps) := by
  rw [reports, fits]
  exact (List.flatMap_subtype (g := fun next =>
    (walker.reports next.task next.part).map (.below next.steps)) fun _ _ => rfl).trans
    (congrArg _ List.unattach_attach)

/-- Induction along a walk: the hypothesis covers the parts that are walked next. -/
@[elab_as_elim]
theorem inductionHanded {motive : Task → Tree → Prop} (walker : Walker)
    (step : ∀ task tree, (∀ next ∈ walker.handed task tree, motive next.task next.part) →
      motive task tree) (task : Task) (tree : Tree) : motive task tree := by
  obtain ⟨bound, low⟩ : ∃ bound, weight task tree < bound := ⟨_, Nat.lt_succ_self _⟩
  induction bound generalizing task tree with
  | zero => omega
  | succ bound ih =>
    refine step task tree fun next member => ih next.task next.part ?_
    have less := weight_lt_of_mem_handed member
    omega

/-- Whether the walk of a value meets what the walks of its parts meet, one after the other. -/
def Gathers (walker : Walker) (task : Task) (tree : Tree) : Prop :=
  (walker.perform task tree).problems = (walker.handed task tree).flatMap fun next =>
    (walker.perform next.task next.part).problems

/-- A whole tree whose type is known gathers what it is walked as. -/
theorem gathers_root {reference : String}
    (fits : walker.registry.misfit? walker.policy (.root reference) tree = none) :
    walker.Gathers (.root reference) tree := by
  cases known : walker.registry.get? reference with
  | none => simp [Registry.misfit?, known] at fits
  | some type =>
    cases entered : walker.skips type with
    | true => simp [Gathers, perform, walkRoot, handed, known, entered]
    | false => simp [Gathers, perform_root known entered, handed, known, entered]

/-- A message gathers its plain fields, then its groups. -/
theorem gathers_message {type : Message} (keys : type.KeysApart) (owner : Option Field)
    (members : List (String × Tree)) : walker.Gathers (.message type owner) (.object members) := by
  rw [Gathers, problems_perform_object, problems_walkMembers _ _ _ keys, handed,
    List.flatMap_append, List.flatMap_assoc, List.flatMap_assoc]
  congr 1
  · refine List.flatMap_congr fun field _ => ?_
    rw [Members.flatMap_gather, fieldProblems]
    simp only [List.flatMap_singleton, perform, Walked.problems_map]
  · refine List.flatMap_congr fun group _ => ?_
    rw [Members.flatMap_gather, groupProblems]
    simp only [List.flatMap_singleton, perform]

/-- The value of a field gathers the messages that it holds, if any. -/
theorem gathers_field {parent : Message} {field : Field}
    (fits : walker.registry.misfit? walker.policy (.field parent field) tree = none) :
    walker.Gathers (.field parent field) tree := by
  cases expects : walker.registry.outlook walker.policy field with
  | secret => simp [Gathers, perform, walkField_eq, handed, expects]
  | scalar => simp [Gathers, perform, walkField_eq, handed, expects]
  | missing typeName => simp [Registry.misfit?, expects] at fits
  | message type =>
    cases entered : walker.skips type with
    | true => simp [Gathers, perform, walkField_eq, handed, expects, entered]
    | false => simp [Gathers, perform_field expects entered, handed, expects, entered]

/-- A list of messages gathers its items. -/
theorem gathers_list {parent type : Message} {field : Field}
    (several : field.cardinality = .repeated) (items : List Tree) :
    walker.Gathers (.nested parent field type) (.list items) := by
  rw [Gathers, problems_perform_list several]
  simp only [handed, several, List.flatMap_map, perform, Walked.problems_map]
  rw [← List.flatMap_map Prod.fst fun item =>
    (walker.walkMessage type (some field) item).problems, List.zipIdx_map_fst]

/-- A map of messages gathers its values. -/
theorem gathers_map {parent type : Message} {field : Field} (keyed : field.cardinality = .map)
    (members : List (String × Tree)) :
    walker.Gathers (.nested parent field type) (.object members) := by
  rw [Gathers, problems_perform_map keyed]
  simp only [handed, keyed, List.flatMap_map, perform, Walked.problems_map]

/-- The messages of a field, as many as it says, gather what they are walked as. -/
theorem gathers_nested {parent type : Message} {field : Field}
    (fits : walker.registry.misfit? walker.policy (.nested parent field type) tree = none) :
    walker.Gathers (.nested parent field type) tree := by
  rw [Registry.misfit?] at fits
  cases h : field.cardinality with
  | singular => simp [Gathers, perform_nested_singular h, handed, h]
  | repeated =>
    rw [h] at fits
    cases tree with
    | list items => exact gathers_list h items
    | null | stripped => simp [Gathers, perform, walkNested, handed, h, misshapen]
    | _ => cases fits
  | map =>
    rw [h] at fits
    cases tree with
    | object members => exact gathers_map h members
    | null | stripped => simp [Gathers, perform, walkNested, handed, h, misshapen]
    | _ => cases fits

/-- A group gathers the alternative in use, if it is declared. -/
theorem gathers_alternative {type : Message} {group active : String} (inner : Tree) :
    walker.Gathers (.group type group) (.object [(active, inner)]) := by
  rw [Gathers, handed]
  cases declared : type.alternative? group active with
  | some field =>
    rw [perform_group declared, Walked.problems_map]
    simp [perform]
  | none =>
    rw [perform, walkGroup_of_alternative?_eq_none _ _ _ declared]
    cases walker.unknownFields <;> rfl

section Apart

variable (apart : walker.registry.KeysApart)

include apart

/-- If a value fits, the walk of it meets what the walks of its parts meet, one after the other. -/
theorem gathers_of_fits (proper : walker.Proper task tree)
    (fits : walker.registry.misfit? walker.policy task tree = none) :
    walker.Gathers task tree := by
  cases task with
  | root reference => exact gathers_root fits
  | message type owner =>
    cases tree with
    | object members => exact gathers_message (apart type proper.knows) owner members
    | null | stripped => rfl
    | _ => cases fits
  | field parent field => exact gathers_field fits
  | nested parent field type => exact gathers_nested fits
  | group parent group =>
    match tree with
    | .object [(active, inner)] => exact gathers_alternative inner
    | .null | .stripped => rfl
    | .bool _ | .number _ | .string _ | .list _ | .object [] | .object (_ :: _ :: _) => cases fits

/-- The problems of a walk are those of its reports, in the same order. -/
theorem problems_perform_eq_reports (proper : walker.Proper task tree) :
    (walker.perform task tree).problems = (walker.reports task tree).map Report.problem := by
  induction task, tree using inductionHanded walker with
  | step task tree ih =>
    cases misfit : walker.registry.misfit? walker.policy task tree with
    | some problem =>
      rw [reports_of_misfit misfit, perform_of_misfit misfit, Walked.problems_map]
      rfl
    | none =>
      have gathers : (walker.perform task tree).problems = _ := gathers_of_fits apart proper misfit
      rw [gathers, reports_of_fits misfit, List.map_flatMap]
      refine List.flatMap_congr fun next member => ?_
      rw [ih next member (proper.of_mem_handed member), List.map_map]
      rfl

/-- The reports are about the parts that the walk reaches and that do not fit. -/
theorem mem_reports_iff (proper : walker.Proper task tree) :
    ⟨path, problem⟩ ∈ walker.reports task tree ↔
      ∃ last value, walker.Reaches task tree path last value ∧
        walker.registry.misfit? walker.policy last value = some problem := by
  constructor
  · intro reported
    induction task, tree using inductionHanded walker generalizing path with
    | step task tree ih =>
      cases misfit : walker.registry.misfit? walker.policy task tree with
      | some other =>
        rw [reports_of_misfit misfit] at reported
        obtain ⟨rfl, rfl⟩ := Report.mk.inj (List.mem_singleton.mp reported)
        exact ⟨task, tree, .here task tree, misfit⟩
      | none =>
        rw [reports_of_fits misfit] at reported
        obtain ⟨next, member, inside⟩ := List.mem_flatMap.mp reported
        obtain ⟨⟨rest, other⟩, within, same⟩ := List.mem_map.mp inside
        obtain ⟨rfl, rfl⟩ := Report.mk.inj same
        obtain ⟨last, value, reached, wrong⟩ :=
          ih next member (proper.of_mem_handed member) within
        exact ⟨last, value, .step ((mem_handed_iff apart proper).mp member) reached, wrong⟩
  · rintro ⟨last, value, reached, misfit⟩
    induction reached with
    | here task tree =>
      rw [reports_of_misfit misfit]
      exact List.mem_singleton.mpr rfl
    | @step task next last tree part value steps rest hands later ih =>
      have member : ⟨steps, next, part⟩ ∈ walker.handed task tree :=
        (mem_handed_iff apart proper).mpr hands
      have fits : walker.registry.misfit? walker.policy task tree = none := by
        rw [Option.eq_none_iff_forall_ne_some]
        intro other wrong
        rw [handed_of_misfit wrong] at member
        cases member
      rw [reports_of_fits fits]
      exact List.mem_flatMap.mpr ⟨_, member, List.mem_map.mpr
        ⟨_, ih (proper.of_mem_handed member) misfit, rfl⟩⟩

/-- No place is reported twice, and none lies inside another one. -/
theorem pairwise_reports (proper : walker.Proper task tree) :
    (walker.reports task tree).Pairwise fun first second =>
      Step.Apart first.path second.path := by
  induction task, tree using inductionHanded walker with
  | step task tree ih =>
    cases misfit : walker.registry.misfit? walker.policy task tree with
    | some problem =>
      rw [reports_of_misfit misfit]
      exact List.pairwise_singleton _ _
    | none =>
      rw [reports_of_fits misfit, List.pairwise_flatMap]
      constructor
      · intro next member
        rw [List.pairwise_map]
        exact (ih next member (proper.of_mem_handed member)).imp fun different =>
          different.append_left next.steps
      · refine (pairwise_handed apart proper).imp fun different => ?_
        intro first here second there
        obtain ⟨_, _, rfl⟩ := List.mem_map.mp here
        obtain ⟨_, _, rfl⟩ := List.mem_map.mp there
        exact different.append _ _

/-- The walk goes no further than to the places that are reported. -/
theorem Reaches.stops_at_report {report : Report} {last : Task} {value : Tree}
    (reached : walker.Reaches task tree path last value) (proper : walker.Proper task tree)
    (reported : report ∈ walker.reports task tree) (beyond : report.path <+: path) :
    path = report.path := by
  induction reached generalizing report with
  | here => exact (List.prefix_nil.mp beyond).symm
  | @step task next last tree part value steps rest hands later ih =>
    have member : ⟨steps, next, part⟩ ∈ walker.handed task tree :=
      (mem_handed_iff apart proper).mpr hands
    cases misfit : walker.registry.misfit? walker.policy task tree with
    | some problem =>
      rw [handed_of_misfit misfit] at member
      cases member
    | none =>
      rw [reports_of_fits misfit] at reported
      obtain ⟨other, present, inside⟩ := List.mem_flatMap.mp reported
      obtain ⟨inner, within, rfl⟩ := List.mem_map.mp inside
      have leads : other.steps <+: steps ++ rest :=
        (List.prefix_append other.steps inner.path).trans beyond
      obtain rfl := eq_of_mem_handed apart proper present member leads
      have further : inner.path <+: rest := (List.prefix_append_right_inj steps).mp beyond
      exact congrArg (steps ++ ·) (ih (proper.of_mem_handed member) within further)

end Apart

end Walker

end Redaction

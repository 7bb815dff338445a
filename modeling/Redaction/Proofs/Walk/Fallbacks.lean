import Redaction.Proofs.Walk.Reports

/-!
# Taking out or letting pass

The two fallbacks do the same except at the places that are reported: what the one lets pass
untouched, the other takes out. Taking a value out early changes no later decision of the walk, so
both walks report the same problems in the same order.
-/

namespace Redaction

open Schema Redaction.Tree

/-- Whether a path is the place of a report. -/
def Report.places (reports : List Report) (path : List Step) : Bool :=
  reports.any fun report => decide (report.path = path)

/-- The places of reports are their paths. -/
theorem Report.places_iff {reports : List Report} {path : List Step} :
    places reports path = true ↔ ∃ problem, ⟨path, problem⟩ ∈ reports := by
  simp only [places, List.any_eq_true, decide_eq_true_eq]
  constructor
  · rintro ⟨report, reported, rfl⟩
    exact ⟨report.problem, reported⟩
  · rintro ⟨problem, reported⟩
    exact ⟨_, reported, rfl⟩

namespace Walker

/-- The walker with another fallback. -/
def withFallback (walker : Walker) (fallback : Fallback) : Walker := { walker with fallback }

variable {walker : Walker} {task : Task} {tree : Tree} {path : List Step}

/-- The parts that are walked next do not depend on the fallback. -/
theorem handed_withFallback (fallback : Fallback) :
    (walker.withFallback fallback).handed task tree = walker.handed task tree := rfl

/-- The reports do not depend on the fallback. -/
theorem reports_withFallback (fallback : Fallback) :
    (walker.withFallback fallback).reports task tree = walker.reports task tree := by
  induction task, tree using inductionHanded walker with
  | step task tree ih =>
    cases misfit : walker.registry.misfit? walker.policy task tree with
    | some problem =>
      have same : (walker.withFallback fallback).registry.misfit?
          (walker.withFallback fallback).policy task tree = some problem := misfit
      rw [reports_of_misfit misfit, reports_of_misfit same]
    | none =>
      have same : (walker.withFallback fallback).registry.misfit?
          (walker.withFallback fallback).policy task tree = none := misfit
      rw [reports_of_fits misfit, reports_of_fits same, handed_withFallback]
      exact List.flatMap_congr fun next member => by rw [ih next member]

section Places

variable (fits : walker.registry.misfit? walker.policy task tree = none)

include fits

/-- A value that fits and hands nothing on is not reported. -/
theorem reports_of_handed_eq_nil (nothing : walker.handed task tree = []) :
    walker.reports task tree = [] := by
  rw [reports_of_fits fits, nothing, List.flatMap_nil]

/-- A value that is walked as something else is reported as this. -/
theorem reports_of_handed_self {next : Task} (self : walker.handed task tree = [⟨[], next, tree⟩]) :
    walker.reports task tree = walker.reports next tree := by
  have same : Report.below [] = id := rfl
  rw [reports_of_fits fits, self, List.flatMap_singleton, same, List.map_id]

/-- Where no part lies that is walked next, there is no report. -/
theorem places_of_foreign (foreign : ∀ next ∈ walker.handed task tree, ¬ next.steps <+: path) :
    Report.places (walker.reports task tree) path = false := by
  refine eq_false_of_ne_true fun reported => ?_
  obtain ⟨problem, reported⟩ := Report.places_iff.mp reported
  rw [reports_of_fits fits] at reported
  obtain ⟨next, member, inside⟩ := List.mem_flatMap.mp reported
  obtain ⟨report, _, same⟩ := List.mem_map.mp inside
  refine foreign next member ⟨report.path, ?_⟩
  exact congrArg Report.path same

/-- The reports below a part that is walked next are those of the part. -/
theorem places_of_mem_handed (apart : walker.registry.KeysApart) (proper : walker.Proper task tree)
    {next : Handed} (member : next ∈ walker.handed task tree) (path : List Step) :
    Report.places (walker.reports task tree) (next.steps ++ path) =
      Report.places (walker.reports next.task next.part) path := by
  rw [Bool.eq_iff_iff, Report.places_iff, Report.places_iff, reports_of_fits fits]
  constructor
  · rintro ⟨problem, reported⟩
    obtain ⟨other, present, inside⟩ := List.mem_flatMap.mp reported
    obtain ⟨report, within, same⟩ := List.mem_map.mp inside
    have paths : other.steps ++ report.path = next.steps ++ path := congrArg Report.path same
    have leads : other.steps <+: next.steps ++ path := ⟨report.path, paths⟩
    have itself := eq_of_mem_handed apart proper present member leads
    subst itself
    have rest : report.path = path := List.append_cancel_left paths
    exact ⟨report.problem, rest ▸ within⟩
  · rintro ⟨problem, reported⟩
    exact ⟨problem, List.mem_flatMap.mpr ⟨next, member, List.mem_map.mpr ⟨_, reported, rfl⟩⟩⟩

end Places

/-- Whether the strict walk of a value yields what the lenient walk yields, blotted out at the
places that are reported. -/
def Blots (walker : Walker) (task : Task) (tree : Tree) : Prop :=
  ((walker.withFallback .strip).perform task tree).value =
    ((walker.withFallback .passthrough).perform task tree).value.map
      (blot (Report.places (walker.reports task tree)))

/-- A value with which both walks do the same and of which nothing is reported. -/
theorem blots_of_reports_eq_nil {task : Task} {tree : Tree}
    (same : ((walker.withFallback .strip).perform task tree).value =
      ((walker.withFallback .passthrough).perform task tree).value)
    (nothing : walker.reports task tree = []) : walker.Blots task tree := by
  have whole : blot (Report.places (walker.reports task tree)) = id := by
    rw [nothing]
    exact funext fun tree => blot_eq_self (fun _ => rfl) tree
  rw [Blots, same, whole, Option.map_id_fun, id]

/-- A value that is walked as something else. -/
theorem blots_of_self {task next : Task} {tree : Tree}
    (fits : walker.registry.misfit? walker.policy task tree = none)
    (self : walker.handed task tree = [⟨[], next, tree⟩])
    (same : ∀ fallback, (walker.withFallback fallback).perform task tree =
      (walker.withFallback fallback).perform next tree)
    (blots : walker.Blots next tree) : walker.Blots task tree := by
  rw [Blots, same, same, reports_of_handed_self fits self]
  exact blots

/-- A value that does not fit is taken out by the one walk and left alone by the other. -/
theorem blots_of_misfit {problem : Problem}
    (misfit : walker.registry.misfit? walker.policy task tree = some problem) :
    walker.Blots task tree := by
  have falls : ∀ fallback, ((walker.withFallback fallback).perform task tree).value =
      some ((walker.withFallback fallback).fallBack problem tree).value := by
    intro fallback
    have same : (walker.withFallback fallback).registry.misfit?
        (walker.withFallback fallback).policy task tree = some problem := misfit
    rw [perform_of_misfit same, Walked.value_map]
  rw [Blots, falls, falls, Option.map_some, reports_of_misfit misfit,
    blot_of_chosen (by simp [Report.places])]
  rfl

/-- A tree that is walked as a message of the type that a reference means. -/
theorem blots_root {reference : String}
    (fits : walker.registry.misfit? walker.policy (.root reference) tree = none)
    (each : ∀ next ∈ walker.handed (.root reference) tree, walker.Blots next.task next.part) :
    walker.Blots (.root reference) tree := by
  cases known : walker.registry.get? reference with
  | none => simp [Registry.misfit?, known] at fits
  | some type =>
    have resolves : ∀ fallback, (walker.withFallback fallback).registry.get? reference =
        some type := fun _ => known
    cases entered : walker.skips type with
    | true =>
      have skips : ∀ fallback, (walker.withFallback fallback).skips type = true := fun _ => entered
      have alone : ∀ fallback, (walker.withFallback fallback).perform (.root reference) tree =
          pure (some tree) := by
        intro fallback
        simp only [perform, walkRoot, resolves, skips, if_true]
        rfl
      have nothing : walker.handed (.root reference) tree = [] := by
        simp only [handed, known, entered, if_true]
      exact blots_of_reports_eq_nil (by rw [alone, alone]) (reports_of_handed_eq_nil fits nothing)
    | false =>
      have enters : ∀ fallback, (walker.withFallback fallback).skips type = false :=
        fun _ => entered
      have self : walker.handed (.root reference) tree = [⟨[], .message type none, tree⟩] := by
        simp only [handed, known, entered, Bool.false_eq_true, if_false]
      exact blots_of_self fits self
        (fun fallback => perform_root (resolves fallback) (enters fallback) tree)
        (each _ (self ▸ List.mem_singleton.mpr rfl))

/-- The value of a field. -/
theorem blots_field {parent : Message} {field : Field}
    (fits : walker.registry.misfit? walker.policy (.field parent field) tree = none)
    (each : ∀ next ∈ walker.handed (.field parent field) tree, walker.Blots next.task next.part) :
    walker.Blots (.field parent field) tree := by
  have equally : ∀ fallback, (walker.withFallback fallback).registry.outlook
      (walker.withFallback fallback).policy field =
        walker.registry.outlook walker.policy field := fun _ => rfl
  cases expects : walker.registry.outlook walker.policy field with
  | secret | scalar =>
    have nothing : walker.handed (.field parent field) tree = [] := by
      simp only [handed, expects]
    refine blots_of_reports_eq_nil ?_ (reports_of_handed_eq_nil fits nothing)
    simp only [perform, walkField_eq, equally, expects]
  | missing typeName => simp [Registry.misfit?, expects] at fits
  | message type =>
    cases entered : walker.skips type with
    | true =>
      have skips : ∀ fallback, (walker.withFallback fallback).skips type = true := fun _ => entered
      have nothing : walker.handed (.field parent field) tree = [] := by
        simp only [handed, expects, entered, if_true]
      refine blots_of_reports_eq_nil ?_ (reports_of_handed_eq_nil fits nothing)
      simp only [perform, walkField_eq, equally, expects, skips, if_true]
    | false =>
      have enters : ∀ fallback, (walker.withFallback fallback).skips type = false :=
        fun _ => entered
      have self : walker.handed (.field parent field) tree =
          [⟨[], .nested parent field type, tree⟩] := by
        simp only [handed, expects, entered, Bool.false_eq_true, if_false]
      exact blots_of_self fits self
        (fun fallback => perform_field ((equally fallback).trans expects) (enters fallback) tree)
        (each _ (self ▸ List.mem_singleton.mpr rfl))

section Steps

variable (apart : walker.registry.KeysApart)

include apart

/-- In a part that is walked next, the strict walk yields what the lenient walk yields, blotted out
at the places that are reported of the whole. -/
theorem blots_below (proper : walker.Proper task tree)
    (fits : walker.registry.misfit? walker.policy task tree = none) {next : Handed}
    (member : next ∈ walker.handed task tree) (blots : walker.Blots next.task next.part) :
    ((walker.withFallback .strip).perform next.task next.part).value =
      ((walker.withFallback .passthrough).perform next.task next.part).value.map
        (blot fun path => Report.places (walker.reports task tree) (next.steps ++ path)) := by
  rw [funext (places_of_mem_handed fits apart proper member)]
  exact blots

/-- The members of a message. -/
theorem blots_object {type : Message} {owner : Option Field} {members : List (String × Tree)}
    (proper : walker.Proper (.message type owner) (.object members))
    (each : ∀ next ∈ walker.handed (.message type owner) (.object members),
      walker.Blots next.task next.part) :
    walker.Blots (.message type owner) (.object members) := by
  have keys := apart type proper.knows
  have fits : walker.registry.misfit? walker.policy (.message type owner) (.object members) =
      none := rfl
  have here : Report.places (walker.reports (.message type owner) (.object members)) [] =
      false := by
    refine places_of_foreign fits fun next member => ?_
    rcases mem_handed_message.mp member with ⟨_, _, _, _, rfl⟩ | ⟨_, _, _, _, rfl⟩ <;> simp
  rw [Blots, value_perform_object, value_perform_object, Option.map_some, blot_object here,
    Members.rewrite_rewrite]
  refine congrArg (fun members => some (Tree.object members))
    (Members.rewrite_congr fun key value present => ?_)
  rw [fate_eq_treat _ _ _ keys, fate_eq_treat _ _ _ keys, treat, treat]
  cases plain : type.plainField? key with
  | some field =>
    obtain ⟨declared, rfl⟩ := (find?_name_eq_some_iff keys.plain).mp plain
    have member : ⟨[.key field.name], .field type field, value⟩ ∈
        walker.handed (.message type owner) (.object members) :=
      mem_handed_message.mpr (.inl ⟨field, declared, value, present, rfl⟩)
    have inner := blots_below apart proper fits member (each _ member)
    rw [perform, perform, Walked.value_map, Walked.value_map, Option.map_some] at inner
    exact inner
  | none =>
    dsimp only
    split
    · next listed =>
      have member : ⟨[.key key], .group type key, value⟩ ∈
          walker.handed (.message type owner) (.object members) :=
        mem_handed_message.mpr (.inr ⟨key, listed, value, present, rfl⟩)
      have inner := blots_below apart proper fits member (each _ member)
      rw [perform, perform, Option.map_eq_bind] at inner
      exact inner
    · next unlisted =>
      have nothing : ∀ path, Report.places
          (walker.reports (.message type owner) (.object members)) (.key key :: path) = false := by
        refine fun path => places_of_foreign fits fun next member leads => ?_
        rcases mem_handed_message.mp member with ⟨field, declared, _, _, rfl⟩ |
          ⟨group, listed, _, _, rfl⟩
        · have same := Step.key.inj (List.cons_prefix_cons.mp leads).1
          exact find?_name_eq_none_iff.mp plain field declared same
        · have same := Step.key.inj (List.cons_prefix_cons.mp leads).1
          exact unlisted (same ▸ listed)
      have untouched : ∀ tree, blot (fun path => Report.places
          (walker.reports (.message type owner) (.object members)) (.key key :: path)) tree =
            tree := fun tree => blot_eq_self nothing tree
      have same : ∀ fallback, (walker.withFallback fallback).unknownFields = walker.unknownFields :=
        fun _ => rfl
      simp only [same]
      cases walker.unknownFields <;> simp only [Option.bind_some, Option.bind_none, untouched]

/-- The value of the alternative in use. -/
theorem blots_group {type : Message} {group : String}
    (proper : walker.Proper (.group type group) tree)
    (fits : walker.registry.misfit? walker.policy (.group type group) tree = none)
    (each : ∀ next ∈ walker.handed (.group type group) tree, walker.Blots next.task next.part) :
    walker.Blots (.group type group) tree := by
  match tree with
  | .null | .stripped => exact blots_of_reports_eq_nil rfl (reports_of_handed_eq_nil rfl rfl)
  | .bool _ | .number _ | .string _ | .list _ | .object [] | .object (_ :: _ :: _) => cases fits
  | .object [(active, inner)] =>
    cases declared : type.alternative? group active with
    | some field =>
      have member : ⟨[.key active], .field type field, inner⟩ ∈
          walker.handed (.group type group) (.object [(active, inner)]) :=
        mem_handed_group.mpr ⟨active, inner, field, rfl, declared, rfl⟩
      have here : Report.places
          (walker.reports (.group type group) (.object [(active, inner)])) [] = false := by
        refine places_of_foreign fits fun next member => ?_
        obtain ⟨_, _, _, _, _, rfl⟩ := mem_handed_group.mp member
        simp
      have inside := blots_below apart proper fits member (each _ member)
      rw [perform, perform, Walked.value_map, Walked.value_map, Option.map_some,
        Option.some.injEq] at inside
      rw [Blots, perform_group declared, perform_group declared, Walked.value_map,
        Walked.value_map, Option.map_some, blot_object here, inside]
      rfl
    | none =>
      have nothing : walker.handed (.group type group) (.object [(active, inner)]) = [] := by
        rw [handed, declared]
        rfl
      refine blots_of_reports_eq_nil ?_ (reports_of_handed_eq_nil fits nothing)
      rw [perform, perform, walkGroup_of_alternative?_eq_none _ _ _ declared,
        walkGroup_of_alternative?_eq_none _ _ _ declared]
      rfl

/-- The items of a list of messages. -/
theorem blots_list {parent type : Message} {field : Field} {items : List Tree}
    (several : field.cardinality = .repeated)
    (proper : walker.Proper (.nested parent field type) (.list items))
    (fits : walker.registry.misfit? walker.policy (.nested parent field type) (.list items) = none)
    (each : ∀ next ∈ walker.handed (.nested parent field type) (.list items),
      walker.Blots next.task next.part) :
    walker.Blots (.nested parent field type) (.list items) := by
  have here : Report.places (walker.reports (.nested parent field type) (.list items)) [] =
      false := by
    refine places_of_foreign fits fun next member => ?_
    obtain ⟨_, _, _, _, _, rfl⟩ := (mem_handed_list several).mp member
    simp
  rw [Blots, value_perform_list several, value_perform_list several, Option.map_some,
    blot_list here]
  refine congrArg (fun items => some (Tree.list items)) (List.ext_getElem? fun position => ?_)
  rw [List.getElem?_mapIdx, List.getElem?_map, List.getElem?_map]
  cases found : items[position]? with
  | none => rfl
  | some item =>
    have member : ⟨[.index position], .message type (some field), item⟩ ∈
        walker.handed (.nested parent field type) (.list items) :=
      (mem_handed_list several).mpr ⟨items, position, item, rfl, found, rfl⟩
    have inside := blots_below apart proper fits member (each _ member)
    rw [perform, perform, Walked.value_map, Walked.value_map, Option.map_some] at inside
    exact inside

/-- The values of a map of messages. -/
theorem blots_map {parent type : Message} {field : Field} {members : List (String × Tree)}
    (keyed : field.cardinality = .map)
    (proper : walker.Proper (.nested parent field type) (.object members))
    (fits : walker.registry.misfit? walker.policy (.nested parent field type) (.object members) =
      none)
    (each : ∀ next ∈ walker.handed (.nested parent field type) (.object members),
      walker.Blots next.task next.part) :
    walker.Blots (.nested parent field type) (.object members) := by
  have here : Report.places (walker.reports (.nested parent field type) (.object members)) [] =
      false := by
    refine places_of_foreign fits fun next member => ?_
    obtain ⟨_, _, _, _, _, rfl⟩ := (mem_handed_map keyed).mp member
    simp
  rw [Blots, value_perform_map keyed, value_perform_map keyed, Option.map_some, blot_object here,
    Members.rewrite_rewrite]
  refine congrArg (fun members => some (Tree.object members))
    (Members.rewrite_congr fun key value present => ?_)
  have member : ⟨[.key key], .message type (some field), value⟩ ∈
      walker.handed (.nested parent field type) (.object members) :=
    (mem_handed_map keyed).mpr ⟨members, key, value, rfl, present, rfl⟩
  have inside := blots_below apart proper fits member (each _ member)
  rw [perform, perform, Walked.value_map, Walked.value_map, Option.map_some] at inside
  exact inside

/-- The messages in the value of a field. -/
theorem blots_nested {parent type : Message} {field : Field}
    (proper : walker.Proper (.nested parent field type) tree)
    (fits : walker.registry.misfit? walker.policy (.nested parent field type) tree = none)
    (each : ∀ next ∈ walker.handed (.nested parent field type) tree,
      walker.Blots next.task next.part) :
    walker.Blots (.nested parent field type) tree := by
  cases count : field.cardinality with
  | singular =>
    have self : walker.handed (.nested parent field type) tree =
        [⟨[], .message type (some field), tree⟩] := by
      simp only [handed, count]
    exact blots_of_self fits self (fun _ => perform_nested_singular count tree)
      (each _ (self ▸ List.mem_singleton.mpr rfl))
  | repeated =>
    cases tree with
    | list items => exact blots_list apart count proper fits each
    | null | stripped =>
      refine blots_of_reports_eq_nil ?_ (reports_of_handed_eq_nil fits ?_)
      · simp only [perform, walkNested, count, misshapen]
      · simp only [handed, count]
    | _ => simp [Registry.misfit?, count, Cardinality.frame?, misshape?, Tree.fits] at fits
  | map =>
    cases tree with
    | object members => exact blots_map apart count proper fits each
    | null | stripped =>
      refine blots_of_reports_eq_nil ?_ (reports_of_handed_eq_nil fits ?_)
      · simp only [perform, walkNested, count, misshapen]
      · simp only [handed, count]
    | _ => simp [Registry.misfit?, count, Cardinality.frame?, misshape?, Tree.fits] at fits

/-- The strict walk yields what the lenient walk yields, blotted out at the places that are
reported. -/
theorem blots (proper : walker.Proper task tree) : walker.Blots task tree := by
  induction task, tree using inductionHanded walker with
  | step task tree ih =>
    have each : ∀ next ∈ walker.handed task tree, walker.Blots next.task next.part :=
      fun next member => ih next member (proper.of_mem_handed member)
    cases fits : walker.registry.misfit? walker.policy task tree with
    | some problem => exact blots_of_misfit fits
    | none =>
      cases task with
      | root reference => exact blots_root fits each
      | message type owner =>
        cases tree with
        | object members => exact blots_object apart proper each
        | null | stripped => exact blots_of_reports_eq_nil rfl (reports_of_handed_eq_nil fits rfl)
        | _ => cases fits
      | field parent field => exact blots_field fits each
      | nested parent field type => exact blots_nested apart proper fits each
      | group parent group => exact blots_group apart proper fits each

end Steps

/-- A part that is reached stands in the tree at the end of the path. -/
theorem Reaches.found {last : Task} {value : Tree}
    (reached : walker.Reaches task tree path last value) : tree.part? path = some value := by
  induction reached with
  | here => rfl
  | step hands _ ih => rw [part?_append, hands.found, Option.bind_some, ih]

/-- The parts that are reached do not depend on the fallback. -/
theorem Reaches.withFallback {last : Task} {value : Tree} (fallback : Fallback)
    (reached : walker.Reaches task tree path last value) :
    (walker.withFallback fallback).Reaches task tree path last value := by
  induction reached with
  | here task tree => exact .here task tree
  | step hands _ ih =>
    exact .step ⟨hands.passes, hands.found, hands.alone, hands.chosen, hands.entered⟩ ih

/-- A part that is reached and does not fit is left to the fallback, whichever it is. -/
theorem part?_walkRoot_of_misfit {reference : String} {last : Task} {value : Tree}
    {problem : Problem} (reached : walker.Reaches (.root reference) tree path last value)
    (misfit : walker.registry.misfit? walker.policy last value = some problem)
    (fallback : Fallback) :
    ((walker.withFallback fallback).walkRoot reference tree).value.part? path =
      some ((walker.withFallback fallback).fallBack problem value).value := by
  have same : (walker.withFallback fallback).registry.misfit?
      (walker.withFallback fallback).policy last value = some problem := misfit
  have done : ((walker.withFallback fallback).perform last value).value =
      some ((walker.withFallback fallback).fallBack problem value).value := by
    rw [perform_of_misfit same, Walked.value_map]
  obtain ⟨whole, yields, here⟩ := (reached.withFallback fallback).performed done
  obtain rfl := Option.some.inj yields
  exact here

/-- Where no key belongs to two fields, both fallbacks lead to the same problems in the same order.
The strict result is the lenient one, blotted out at the places of these problems. Each place holds
untouched data in the lenient result. The places are apart, the walk goes no further than to them,
and they are the parts that it reaches and that do not fit the schema. -/
theorem strict_eq_blot_lenient (registry : Registry) (apart : registry.KeysApart) (config : Config)
    (additional : AdditionalNames) (reference : String) (document : Json)
    (canonical : document.Canonical) :
    let tree := Tree.ofJson document
    let redacted := fun fallback => Config.redactTree { config with fallback } registry additional
      reference tree
    let walker := ofConfig registry config additional
    let reports := walker.reports (.root reference) tree
    (∀ fallback, (redacted fallback).events =
      reports.map fun report => .fellBack report.problem fallback) ∧
    (redacted .strip).result = (redacted .passthrough).result.blot (Report.places reports) ∧
    (∀ report ∈ reports, ∃ part, tree.part? report.path = some part ∧
      (redacted .passthrough).result.part? report.path = some part ∧
      (redacted .strip).result.part? report.path = some .stripped) ∧
    reports.Pairwise (fun first second => Step.Apart first.path second.path) ∧
    (∀ report ∈ reports, ∀ path last value,
      walker.Reaches (.root reference) tree path last value → report.path <+: path →
        path = report.path) ∧
    ∀ path problem, ⟨path, problem⟩ ∈ reports ↔
      ∃ last value, walker.Reaches (.root reference) tree path last value ∧
        registry.misfit? walker.policy last value = some problem := by
  intro tree redacted walker reports
  have proper : walker.Proper (.root reference) tree :=
    ⟨trivial, canonical_ofJson document canonical, trivial⟩
  have runs : ∀ fallback, ofConfig registry { config with fallback } additional =
      walker.withFallback fallback := fun _ => rfl
  have met : ∀ path problem, ⟨path, problem⟩ ∈ reports ↔
      ∃ last value, walker.Reaches (.root reference) tree path last value ∧
        registry.misfit? walker.policy last value = some problem :=
    fun path problem => mem_reports_iff apart proper
  refine ⟨fun fallback => ?_, ?_, fun report reported => ?_, pairwise_reports apart proper,
    fun report reported path last value reached => reached.stops_at_report apart proper reported,
    met⟩
  · have sameTypes : (walker.withFallback fallback).registry.KeysApart := apart
    have stillProper : (walker.withFallback fallback).Proper (.root reference) tree :=
      ⟨trivial, proper.canonical, trivial⟩
    have problems : ((walker.withFallback fallback).walkRoot reference tree).problems =
        reports.map Report.problem := by
      have performed := problems_perform_eq_reports sameTypes stillProper
      rwa [perform, Walked.problems_map, reports_withFallback] at performed
    change ((walker.withFallback fallback).walkRoot reference tree).problems.map _ = _
    rw [problems, List.map_map]
    rfl
  · have blotted : walker.Blots (.root reference) tree := blots apart proper
    rw [Blots, perform, perform, Walked.value_map, Walked.value_map] at blotted
    exact Option.some.inj blotted
  · obtain ⟨last, value, reached, misfit⟩ := (met report.path report.problem).mp reported
    exact ⟨value, reached.found, part?_walkRoot_of_misfit reached misfit .passthrough,
      part?_walkRoot_of_misfit reached misfit .strip⟩

/-- Two orders with a card that is no message and a list of lines of which one is a text: both
places are reported, in the order of the declarations, and taken out only by the strict walk. -/
theorem order_strict_eq_blot_lenient :
    let order := Message.ofDeclarations "shop.Order"
      [.field (Field.message "lines" ".shop.Order").repeated, .field (.message "card" "shop.Card")]
    let registry := Registry.ofList [order]
    let document := Json.object [("card", .string "4111"),
      ("lines", .array [.object [], .string "gift"])]
    let redacted := fun fallback => Config.redactTree { fallback } registry .empty "shop.Order"
      (.ofJson document)
    let reports := (ofConfig registry {} .empty).reports (.root "shop.Order") (.ofJson document)
    registry.KeysApart ∧ document.Canonical ∧
      (redacted .strip).result = (redacted .passthrough).result.blot (Report.places reports) ∧
      (redacted .passthrough).result = .ofJson document ∧
      (redacted .strip).result =
        .object [("card", .stripped), ("lines", .list [.object [], .stripped])] ∧
      (reports.map fun report => Event.fellBack report.problem .strip) =
        [.fellBack (.unexpectedShape "shop.Order" "lines" .object .string) .strip,
          .fellBack (.unknownType "shop.Card") .strip] := by
  intro order registry document redacted reports
  have apart : registry.KeysApart := by decide
  have canonical : document.Canonical :=
    ⟨List.pairwise_pair.mpr (by decide), trivial, ⟨⟨.nil, trivial⟩, trivial, trivial⟩, trivial⟩
  have walked := strict_eq_blot_lenient registry apart {} .empty "shop.Order" document canonical
  exact ⟨apart, canonical, walked.2.1, by decide, by decide,
    (walked.1 .strip).symm.trans (by decide)⟩

end Walker

end Redaction

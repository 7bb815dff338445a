import Redaction.Proofs.Tree.Veiled
import Redaction.Proofs.Walk.Misfit

/-!
# Problems at their places

From the whole message the schema arrives along paths at what the values there are walked as. A walk
that has redacted some values may come to a value once more, so what it sees at the end of a path is
what is left of a part of the tree. Each problem that a walk reports is that of such a value, which
does not fit what the schema says about it. Nothing is assumed about the types: keys may be declared
more than once.
-/

namespace Redaction

open Schema Redaction.Tree

namespace Schema.Registry

/-- From one task the schema arrives at another one along a path. -/
inductive Arrives (registry : Registry) (policy : Policy) : Task → List Step → Task → Prop where
  /-- At the task itself, along no path. -/
  | here (task : Task) : Arrives registry policy task [] task
  /-- Some steps more. -/
  | step {task middle next : Task} {path steps : List Step}
    (arrives : Arrives registry policy task path middle)
    (passes : registry.Passes policy middle steps next) :
    Arrives registry policy task (path ++ steps) next

variable {registry : Registry} {policy : Policy} {task middle next : Task} {path : List Step}

/-- The same value as something else. -/
theorem Arrives.stay (arrives : registry.Arrives policy task path middle)
    (passes : registry.Passes policy middle [] next) : registry.Arrives policy task path next :=
  List.append_nil path ▸ arrives.step passes

/-- Whether the types, fields and groups that a task is about are declared in the registry. -/
def Declares (registry : Registry) : Task → Prop
  | .root _ => True
  | .message type _ => type ∈ registry.messages
  | .field parent field => parent ∈ registry.messages ∧ field ∈ parent.fields
  | .nested parent field type =>
    parent ∈ registry.messages ∧ field ∈ parent.fields ∧ type ∈ registry.messages
  | .group parent group => parent ∈ registry.messages ∧ group ∈ parent.groups

/-- From what is declared tasks lead to what is declared. -/
theorem Passes.declares {steps : List Step} (passes : registry.Passes policy task steps next)
    (declares : registry.Declares task) : registry.Declares next := by
  cases passes with
  | root resolved => exact mem_of_get?_eq_some resolved
  | plain declared => exact ⟨declares, List.mem_of_mem_filter declared⟩
  | group listed => exact ⟨declares, listed⟩
  | alternative declared =>
    exact ⟨declares.1, List.mem_of_mem_filter (List.mem_of_find?_eq_some declared)⟩
  | messages expects =>
    have known := mem_of_nested?_eq_some (outlook_eq_message_iff.mp expects).2
    exact ⟨declares.1, declares.2, known⟩
  | single | item | entry => exact declares.2.2

/-- What the schema arrives at from what is declared is declared. -/
theorem Arrives.declares (arrives : registry.Arrives policy task path next)
    (declares : registry.Declares task) : registry.Declares next := by
  induction arrives with
  | here => exact declares
  | step _ passes ih => exact passes.declares ih

end Schema.Registry

namespace Tree

/-- A value is misshapen if it does not fit, and then its shape is reported. -/
theorem misshape?_eq_some_iff {value : Tree} {message field : String} {expected : Expectation}
    {problem : Problem} :
    value.misshape? message field expected = some problem ↔
      value.fits expected = false ∧
        problem = .unexpectedShape message field expected value.shape := by
  rw [misshape?]
  cases value.fits expected with
  | true => simp
  | false =>
    rw [if_neg Bool.false_ne_true, and_iff_right rfl, Option.some.injEq]
    exact eq_comm

/-- Whether a value is what redaction has left of a part that a tree has at the end of a path. -/
def Remnant (mayDrop : Prop) (tree : Tree) (path : List Step) (value : Tree) : Prop :=
  ∃ part, tree.Has path part ∧ Veiled mayDrop part value

namespace Remnant

variable {mayDrop : Prop} {tree value later part : Tree} {path steps : List Step}

/-- The whole tree. -/
theorem here (tree : Tree) : Remnant mayDrop tree [] tree := ⟨tree, .here tree, .refl tree⟩

/-- A part of what is left is left of a part. -/
theorem below (remnant : Remnant mayDrop tree path value) (has : value.Has steps part) :
    Remnant mayDrop tree (path ++ steps) part := by
  obtain ⟨origin, there, veiled⟩ := remnant
  obtain ⟨inner, inside, left⟩ := veiled.exists_of_has has
  exact ⟨inner, has_append_iff.mpr ⟨origin, there, inside⟩, left⟩

/-- More redaction leaves less. -/
theorem redacted (remnant : Remnant mayDrop tree path value)
    (redacted : Redacted mayDrop value later) : Remnant mayDrop tree path later := by
  obtain ⟨origin, there, veiled⟩ := remnant
  exact ⟨origin, there, veiled.trans redacted.veiled⟩

end Remnant

end Tree

namespace Walked

variable {α β : Type} {allowed : Problem → Prop}

/-- Whether a walk reports allowed problems only. -/
def Reports (allowed : Problem → Prop) (walked : Walked α) : Prop :=
  ∀ problem ∈ walked.problems, allowed problem

namespace Reports

/-- What is not walked reports nothing. -/
theorem pure (value : α) : Reports allowed (Pure.pure value) := List.forall_mem_nil _

/-- A function of the result. -/
theorem map {walked : Walked α} (f : α → β) (reports : Reports allowed walked) :
    Reports allowed (f <$> walked) := by
  rwa [Reports, problems_map]

/-- One step after the other. -/
theorem bind {walked : Walked α} {next : α → Walked β} (first : Reports allowed walked)
    (second : Reports allowed (next walked.value)) : Reports allowed (walked >>= next) := by
  rw [Reports, problems_bind]
  exact List.forall_mem_append.mpr ⟨first, second⟩

/-- The items of a list. -/
theorem items {step : Tree → Walked Tree} {list : List Tree}
    (each : ∀ item ∈ list, Reports allowed (step item)) :
    Reports allowed (Walked.items step list) := by
  intro problem reported
  rw [problems_items] at reported
  obtain ⟨item, present, reported⟩ := List.mem_flatMap.mp reported
  exact each item present problem reported

/-- The values of an object. -/
theorem members {step : Tree → Walked Tree} {list : List (String × Tree)}
    (each : ∀ member ∈ list, Reports allowed (step member.2)) :
    Reports allowed (Walked.members step list) := by
  intro problem reported
  rw [problems_members] at reported
  obtain ⟨member, present, reported⟩ := List.mem_flatMap.mp reported
  exact each member present problem reported

/-- The values of one key. -/
theorem atKey {key : String} {step : Tree → Walked (Option Tree)} {list : List (String × Tree)}
    (each : ∀ value, (key, value) ∈ list → Reports allowed (step value)) :
    Reports allowed (Walked.atKey key step list) := by
  intro problem reported
  rw [problems_atKey] at reported
  obtain ⟨⟨name, value⟩, present, inside⟩ := List.mem_flatMap.mp reported
  split at inside
  · next same =>
    obtain rfl : name = key := same
    exact each value present problem inside
  · cases inside

end Reports

end Walked

namespace Walker

variable {walker : Walker} {start : Task} {tree : Tree}

/-- The problems that a walk may report: those of values that do not fit what the schema
arrives at. -/
def Placed (walker : Walker) (start : Task) (tree : Tree) (problem : Problem) : Prop :=
  ∃ path last value, walker.registry.Arrives walker.policy start path last ∧
    Remnant (walker.unknownFields = .drop) tree path value ∧
    walker.registry.misfit? walker.policy last value = some problem

/-- A fallback for a value that does not fit reports its problem. -/
theorem reports_fallBack {path : List Step} {last : Task} {value : Tree} {problem : Problem}
    (arrives : walker.registry.Arrives walker.policy start path last)
    (remnant : Remnant (walker.unknownFields = .drop) tree path value)
    (misfit : walker.registry.misfit? walker.policy last value = some problem) :
    (walker.fallBack problem value).Reports (walker.Placed start tree) :=
  List.forall_mem_singleton.mpr ⟨path, last, value, arrives, remnant, misfit⟩

section Entered

variable {enter : Enter} (redacts : Redacts (walker.unknownFields = .drop) enter)
  (enters : ∀ {path field nested value},
    walker.registry.Arrives walker.policy start path (.message nested (some field)) →
    Remnant (walker.unknownFields = .drop) tree path value →
    (enter nested field value).Reports (walker.Placed start tree))
  {path : List Step} {message : Message}

include enters

/-- The messages in a field. -/
theorem reports_walkNested {field : Field} {nested : Message}
    (arrives : walker.registry.Arrives walker.policy start path (.nested message field nested))
    {value : Tree} (remnant : Remnant (walker.unknownFields = .drop) tree path value) :
    (walker.walkNested enter message field nested value).Reports (walker.Placed start tree) := by
  cases misfit : walker.registry.misfit? walker.policy (.nested message field nested) value with
  | some problem =>
    rw [walkNested_of_misfit misfit]
    exact reports_fallBack arrives remnant misfit
  | none =>
    rw [Registry.misfit?] at misfit
    unfold walkNested
    cases framed : field.cardinality with
    | singular => exact enters (arrives.stay (.single framed)) remnant
    | repeated =>
      rw [framed] at misfit
      cases value with
      | list items =>
        refine (Walked.Reports.items fun item present => ?_).map _
        obtain ⟨position, found⟩ := List.mem_iff_getElem?.mp present
        exact enters (arrives.step (.item framed position))
          (remnant.below (.item found (.here item)))
      | null | stripped => exact .pure _
      | _ => cases misfit
    | map =>
      rw [framed] at misfit
      cases value with
      | object members =>
        refine (Walked.Reports.members fun member present => ?_).map _
        exact enters (arrives.step (.entry framed member.1))
          (remnant.below (.member present (.here member.2)))
      | null | stripped => exact .pure _
      | _ => cases misfit

/-- A field. -/
theorem reports_walkField {field : Field}
    (arrives : walker.registry.Arrives walker.policy start path (.field message field))
    {value : Tree} (remnant : Remnant (walker.unknownFields = .drop) tree path value) :
    (walker.walkField enter message field value).Reports (walker.Placed start tree) := by
  rw [walkField_eq]
  cases expects : walker.registry.outlook walker.policy field with
  | secret => exact .pure _
  | scalar => exact .pure _
  | missing typeName =>
    exact reports_fallBack arrives remnant (by rw [Registry.misfit?, expects])
  | message nested =>
    dsimp only
    split
    · exact .pure _
    · exact reports_walkNested enters (arrives.stay (.messages expects)) remnant

/-- A group. -/
theorem reports_walkGroup {group : String}
    (arrives : walker.registry.Arrives walker.policy start path (.group message group))
    {value : Tree} (remnant : Remnant (walker.unknownFields = .drop) tree path value) :
    (walker.walkGroup enter message group value).Reports (walker.Placed start tree) := by
  cases wrong : value.groupFlaw? with
  | some flaw =>
    rw [walkGroup_of_groupFlaw? wrong]
    exact (reports_fallBack arrives remnant (by rw [Registry.misfit?, wrong]; rfl)).map _
  | none =>
    cases value with
    | null | stripped => exact .pure _
    | bool | number | string | list => cases wrong
    | object members =>
      rcases members with _ | ⟨⟨active, inner⟩, _ | ⟨_, _⟩⟩
      · cases wrong
      · cases declared : message.alternative? group active with
        | some field =>
          rw [walkGroup_of_alternative?_eq_some _ _ _ declared]
          have inside := remnant.below (.member List.mem_cons_self (.here inner))
          exact (reports_walkField enters (arrives.step (.alternative declared)) inside).map _
        | none =>
          rw [walkGroup_of_alternative?_eq_none _ _ _ declared]
          cases walker.unknownFields <;> exact .pure _
      · cases wrong

include redacts

/-- Plain fields. -/
theorem reports_walkPlainFields {owner : Option Field}
    (arrives : walker.registry.Arrives walker.policy start path (.message message owner))
    {fields : List Field} (declared : ∀ field ∈ fields, field ∈ message.plainFields)
    {members : List (String × Tree)}
    (remnant : Remnant (walker.unknownFields = .drop) tree path (.object members)) :
    (walker.walkPlainFields enter message fields members).Reports (walker.Placed start tree) := by
  induction fields generalizing members with
  | nil => exact .pure _
  | cons field rest ih =>
    have here := declared field List.mem_cons_self
    have later := fun other present => declared other (List.mem_cons_of_mem _ present)
    refine (Walked.Reports.atKey fun value present => ?_).bind (ih later ?_)
    · have inside := remnant.below (.member present (.here value))
      exact (reports_walkField enters (arrives.step (.plain here)) inside).map some
    · rw [Walked.value_atKey]
      refine remnant.redacted (.object (fun key value => ?_) members)
      split
      · exact redacted_walkField redacts field value
      · exact Redacted.refl value

/-- Groups. -/
theorem reports_walkGroups {owner : Option Field}
    (arrives : walker.registry.Arrives walker.policy start path (.message message owner))
    {groups : List String} (listed : ∀ group ∈ groups, group ∈ message.groups)
    {members : List (String × Tree)}
    (remnant : Remnant (walker.unknownFields = .drop) tree path (.object members)) :
    (walker.walkGroups enter message groups members).Reports (walker.Placed start tree) := by
  induction groups generalizing members with
  | nil => exact .pure _
  | cons group rest ih =>
    have here := listed group List.mem_cons_self
    have later := fun other present => listed other (List.mem_cons_of_mem _ present)
    refine (Walked.Reports.atKey fun value present => ?_).bind (ih later ?_)
    · have inside := remnant.below (.member present (.here value))
      exact reports_walkGroup enters (arrives.step (.group here)) inside
    · rw [Walked.value_atKey]
      refine remnant.redacted (.object (fun key value => ?_) members)
      split
      · exact redacted_walkGroup redacts group value
      · exact Redacted.refl value

/-- The members of a message. -/
theorem reports_walkMembers {owner : Option Field}
    (arrives : walker.registry.Arrives walker.policy start path (.message message owner))
    {members : List (String × Tree)}
    (remnant : Remnant (walker.unknownFields = .drop) tree path (.object members)) :
    (walker.walkMembers enter message members).Reports (walker.Placed start tree) := by
  have settled : Remnant (walker.unknownFields = .drop) tree path
      (.object (walker.settleUnknown message members)) := by
    rw [settleUnknown_eq]
    exact remnant.redacted (.object rule_settled members)
  refine (reports_walkPlainFields redacts enters arrives (fun _ declared => declared) settled).bind
    (reports_walkGroups redacts enters arrives (fun _ listed => listed) ?_)
  have plain : Redacted.Rule (walker.unknownFields = .drop) fun key value =>
      some (walker.plainFate enter message message.plainFields key value) :=
    fun key value => redacted_plainFate redacts _ key value
  rw [value_walkPlainFields]
  exact settled.redacted (.object plain _)

end Entered

/-- A walk within any bound reports problems of values that do not fit. -/
theorem reports_walkWithin (bound : Nat) {path : List Step} {message : Message}
    {owner : Option Field}
    (arrives : walker.registry.Arrives walker.policy start path (.message message owner))
    {value : Tree} (remnant : Remnant (walker.unknownFields = .drop) tree path value) :
    (walker.walkWithin bound message owner value).Reports (walker.Placed start tree) := by
  induction bound generalizing path message owner value with
  | zero =>
    unfold walkWithin
    cases value with
    | null | stripped | object => exact .pure _
    | _ => exact reports_fallBack arrives remnant rfl
  | succ bound ih =>
    unfold walkWithin
    cases value with
    | object members =>
      exact (reports_walkMembers (walker.redacts_walkWithin bound)
        (fun there left => ih there left) arrives remnant).map _
    | null | stripped => exact .pure _
    | _ => exact reports_fallBack arrives remnant rfl

/-- Each problem of a walk is that of a value which does not fit what the schema says about it. -/
theorem placed_of_mem_problems {reference : String} {problem : Problem}
    (reported : problem ∈ (walker.walkRoot reference tree).problems) :
    walker.Placed (.root reference) tree problem := by
  unfold walkRoot at reported
  split at reported
  · next missing =>
    rw [List.mem_singleton.mp reported]
    exact ⟨[], .root reference, tree, .here _, .here tree, by rw [Registry.misfit?, missing]; rfl⟩
  · next message known =>
    split at reported
    · cases reported
    · have arrives : walker.registry.Arrives walker.policy (.root reference) []
          (.message message none) := (Registry.Arrives.here _).stay (.root known)
      exact reports_walkWithin tree.depth arrives (.here tree) problem reported

end Walker

end Redaction

import Redaction.Proofs.Schema.Reachable
import Redaction.Proofs.Walk.Depth
import Redaction.Proofs.Walk.Pointwise
import Redaction.Proofs.Walk.Verdict

/-!
# A walk leaves the outcome of its root

Where no key belongs to two fields, each function of the walk makes of a value what the verdicts on
the places in it say. So the tree that a walk leaves is the outcome of the place of the root.
-/

namespace Redaction

open Schema Redaction.Tree

namespace Walker

variable {walker : Walker} {place : Place}

/-- A fallback does with a value what is done with one that does not fit. -/
theorem value_fallBack (problem : Problem) (value entered : Tree) :
    (walker.fallBack problem value).value = walker.onMisfit.apply value entered := by
  unfold fallBack onMisfit
  cases walker.fallback <;> rfl

/-- A value of the wrong shape has the outcome of its place. -/
theorem value_misshapen (framed : place.framed = true) (entered : walker.leaves place = false)
    {value : Tree} (wrong : place.accepts value = false) (owner field : String)
    (expected : Expectation) :
    (walker.misshapen owner field expected value).value = walker.outcome place value := by
  rw [outcome_of_verdict (verdict_of_misfit framed entered wrong)]
  cases value with
  | null => rfl
  | stripped => rfl
  | _ => exact value_fallBack _ _ _

section Step

variable {enter : Enter} {message : Message} {bound : Nat}
  (enters : ∀ nested field part, nested ∈ walker.registry.messages →
    walker.skips nested = false → part.depth ≤ bound →
    (enter nested field part).value = walker.outcome (.message nested) part)

include enters

/-- The messages in a field have the outcome of their place if each of them has. -/
theorem value_walkNested {field : Field} {nested : Message} {value : Tree}
    (member : nested ∈ walker.registry.messages) (entered : walker.skips nested = false)
    (low : value.depth ≤ bound) :
    (walker.walkNested enter message field nested value).value =
      walker.outcome (.ofMessages nested field.cardinality) value := by
  have each : ∀ part ∈ value.parts field.cardinality,
      (enter nested field part).value = walker.outcome (.message nested) part :=
    fun part inside => enters nested field part member entered
      (Nat.le_trans (depth_le_of_mem_parts inside) low)
  unfold walkNested
  cases h : field.cardinality with
  | singular =>
    rw [h] at each
    exact each value (List.mem_singleton.mpr rfl)
  | repeated =>
    have searched : walker.leaves (.list nested) = false := entered
    rw [h] at each
    cases value with
    | list items =>
      have same : items.map (fun item => (enter nested field item).value) =
          items.map (walker.outcome (.message nested)) := List.map_congr_left each
      dsimp only
      rw [Walked.value_map, Walked.value_items, same, Place.ofMessages,
        outcome_of_accepts searched rfl rfl]
      rfl
    | _ => exact value_misshapen rfl searched rfl _ _ _
  | map =>
    have searched : walker.leaves (.map nested) = false := entered
    rw [h] at each
    cases value with
    | object members =>
      have same : ∀ entry ∈ members,
          (enter nested field entry.2).value = walker.outcome (.message nested) entry.2 :=
        fun entry present => each entry.2 (List.mem_map_of_mem present)
      dsimp only
      rw [Walked.value_map, Walked.value_members, Members.mapValues_eq_rewrite, Place.ofMessages,
        outcome_of_accepts searched rfl rfl, outcomeInside, Tree.inside]
      refine congrArg Tree.object (Members.rewrite_congr fun key part present => ?_)
      have stays : walker.kept (.message nested) part =
          some (walker.outcome (.message nested) part) := kept_of_not_removable rfl part
      rw [same _ present]
      exact stays.symm
    | _ => exact value_misshapen rfl searched rfl _ _ _

/-- The value of a field has the outcome of its place. -/
theorem value_walkField {field : Field} {value : Tree} (low : value.depth ≤ bound) :
    (walker.walkField enter message field value).value =
      walker.outcome (walker.registry.placeOf walker.policy field) value := by
  rw [walkField_eq]
  unfold Registry.placeOf
  cases h : walker.registry.outlook walker.policy field with
  | secret => rw [outcome_eq]; rfl
  | scalar => rw [outcome_eq]; rfl
  | missing typeName =>
    rw [outcome_eq]
    exact value_fallBack _ _ _
  | message nested =>
    have member := Registry.mem_of_nested?_eq_some (Registry.outlook_eq_message_iff.mp h).2
    dsimp only
    split
    · next skips => exact (outcome_of_leaves (leaves_ofMessages field.cardinality skips) value).symm
    · next entered =>
      exact value_walkNested enters member (eq_false_of_ne_true entered) low

/-- The value of a group has the outcome of its place. -/
theorem value_walkGroup {group : String} {value : Tree} (low : value.depth ≤ bound) :
    (walker.walkGroup enter message group value).value =
      walker.kept (.group message group) value := by
  match value with
  | .object [(active, inner)] =>
    simp only [depth, membersDepth] at low
    cases declared : message.alternative? group active with
    | some field =>
      rw [walkGroup_of_alternative?_eq_some _ _ _ declared, kept_group_of_alternative? declared,
        Walked.value_map, value_walkField enters (by omega)]
    | none =>
      rw [walkGroup_of_alternative?_eq_none _ _ _ declared, kept_group_of_unknown declared,
        outcome_eq, verdict]
      unfold onUnknown
      cases walker.unknownFields <;> rfl
  | .null | .stripped =>
    rw [kept_of_vacant]
    all_goals rfl
  | .bool _ | .number _ | .string _ | .list _ | .object [] | .object (_ :: _ :: _) =>
    rw [kept_of_misfit]
    · exact congrArg some (value_fallBack _ _ .stripped)
    all_goals rfl

/-- What becomes of a member by itself is what is kept of its value at its place. -/
theorem treat_eq_kept (key : String) {value : Tree} (low : value.depth ≤ bound) :
    walker.treat enter message key value =
      walker.kept (walker.under (.message message) key) value := by
  unfold treat
  cases plain : message.plainField? key with
  | some field =>
    have place : walker.under (.message message) key =
        walker.registry.placeOf walker.policy field := Registry.under_message_of_plainField? plain
    dsimp only
    rw [place, value_walkField enters low, kept_of_not_removable (Registry.removable_placeOf field)]
  | none =>
    dsimp only
    by_cases listed : key ∈ message.groups
    · have place : walker.under (.message message) key = .group message key :=
        Registry.under_message_of_listed plain listed
      rw [if_pos listed, place, value_walkGroup enters low]
    · have place : walker.under (.message message) key = .unknown :=
        Registry.under_message_of_unknown plain listed
      rw [if_neg listed, place, kept, outcome_eq, verdict]
      unfold onUnknown
      cases walker.unknownFields <;> rfl

end Step

/-- A message that is entered has the outcome of its place, within any bound that it keeps. -/
theorem value_walkWithin_eq_outcome (apart : walker.registry.KeysApart) (bound : Nat)
    {message : Message} (owner : Option Field) {value : Tree}
    (member : message ∈ walker.registry.messages) (entered : walker.skips message = false)
    (low : value.depth ≤ bound) :
    (walker.walkWithin bound message owner value).value =
      walker.outcome (.message message) value := by
  have searched : walker.leaves (.message message) = false := entered
  induction bound generalizing message owner value with
  | zero =>
    cases value with
    | object members =>
      simp only [depth] at low
      omega
    | _ => exact value_misshapen rfl searched rfl _ _ _
  | succ bound ih =>
    cases value with
    | object members =>
      simp only [depth] at low
      have below := membersDepth_le_iff.mp (show membersDepth members ≤ bound by omega)
      rw [walkWithin, Walked.value_map, value_walkMembers, outcome_of_accepts searched rfl rfl,
        outcomeInside, Tree.inside]
      refine congrArg Tree.object (Members.rewrite_congr fun key part present => ?_)
      rw [fate_eq_treat _ _ _ (apart message member)]
      exact treat_eq_kept (fun nested field part known searched deep =>
        ih (some field) known searched deep searched) key (below _ present)
    | _ => exact value_misshapen rfl searched rfl _ _ _

/-- Where no key belongs to two fields, a walk leaves the outcome of the place of the root. -/
theorem value_walkRoot_eq_outcome (apart : walker.registry.KeysApart) (reference : String)
    (tree : Tree) :
    (walker.walkRoot reference tree).value =
      walker.outcome (walker.registry.placeOfRoot reference) tree := by
  rw [walkRoot, Registry.placeOfRoot]
  cases resolved : walker.registry.get? reference with
  | none =>
    rw [outcome_eq]
    exact value_fallBack _ _ _
  | some message =>
    have member := Registry.mem_of_get?_eq_some resolved
    dsimp only
    split
    · next skips =>
      have left : walker.leaves (.message message) = true := skips
      exact (outcome_of_leaves left tree).symm
    · next entered =>
      exact value_walkWithin_eq_outcome apart tree.depth none member (eq_false_of_ne_true entered)
        (Nat.le_refl _)

end Walker

end Redaction

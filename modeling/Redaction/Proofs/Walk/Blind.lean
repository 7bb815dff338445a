import Redaction.Proofs.Tree.Skeleton
import Redaction.Proofs.Walk.Foreseen
import Redaction.Sanitizer.Basic

/-!
# Walks do not look at contents

A walk asks for the shape of a value, for the keys and lengths of objects and lists, and never for
the content of a truth value, a number or a text. So it makes no difference whether the contents are
forgotten before the walk or after it, and trees with the same skeleton lead to the same records.
-/

namespace Redaction

open Schema Redaction.Tree

namespace Members

variable {α : Type}

/-- Selecting members by their keys and changing the values may be done in any order. -/
theorem filter_mapValues (keep : String → Bool) (f : α → α) (members : List (String × α)) :
    (mapValues f members).filter (fun member => keep member.1) =
      mapValues f (members.filter fun member => keep member.1) := List.filter_map

end Members

namespace Walked

variable {step : Tree → Walked Tree} {f : Tree → Tree}

instance : LawfulMonad Walked := LawfulMonad.mk' Walked
  (fun _ => Walked.ext (value_map id _) (problems_map id _))
  (fun value next => Walked.ext rfl (List.nil_append _))
  (fun step next last => Walked.ext rfl (List.append_assoc _ _ _))

/-- What passes through the step passes through the walk of a list. -/
theorem items_map (natural : ∀ item, step (f item) = f <$> step item) (list : List Tree) :
    items step (list.map f) = List.map f <$> items step list := by
  induction list with
  | nil => rfl
  | cons item rest ih =>
    simp only [List.map_cons, items, natural, ih, map_bind, bind_map_left, map_pure]

/-- What passes through the step passes through the walk of an object. -/
theorem members_mapValues (natural : ∀ value, step (f value) = f <$> step value)
    (list : List (String × Tree)) :
    members step (Members.mapValues f list) = Members.mapValues f <$> members step list := by
  induction list with
  | nil => rfl
  | cons member rest ih =>
    rw [Members.mapValues, List.map_cons]
    simp only [members, natural, map_bind, map_pure, List.map_cons, bind_map_left,
      Members.mapValues]
    refine congrArg (step member.2 >>= ·) (funext fun value => ?_)
    rw [← Members.mapValues, ih, bind_map_left]
    rfl

/-- What passes through the step passes through the walk of one key. -/
theorem atKey_mapValues {key : String} {step : Tree → Walked (Option Tree)}
    (natural : ∀ value, step (f value) = Option.map f <$> step value)
    (list : List (String × Tree)) :
    atKey key step (Members.mapValues f list) = Members.mapValues f <$> atKey key step list := by
  induction list with
  | nil => rfl
  | cons member rest ih =>
    obtain ⟨name, value⟩ := member
    have split : Members.mapValues f ((name, value) :: rest) =
      (name, f value) :: Members.mapValues f rest := rfl
    rw [split, atKey, atKey, natural, ih]
    by_cases here : name = key
    · rw [if_pos here, if_pos here]
      simp only [bind_map_left, map_bind, map_pure]
      refine congrArg (step value >>= ·) (funext fun kept => ?_)
      cases kept <;> rfl
    · rw [if_neg here, if_neg here]
      simp only [bind_map_left, map_bind, map_pure]
      rfl

end Walked

namespace Walker

variable {walker : Walker} {message : Message}

/-- A fallback does not look at contents. -/
theorem fallBack_skeleton (problem : Problem) (value : Tree) :
    walker.fallBack problem value.skeleton = skeleton <$> walker.fallBack problem value := by
  refine Walked.ext ?_ rfl
  rw [Walked.value_map]
  unfold fallBack
  cases walker.fallback <;> rfl

/-- Whether a value has the wrong shape does not depend on contents. -/
theorem misshapen_skeleton (owner field : String) (expected : Expectation) (value : Tree) :
    walker.misshapen owner field expected value.skeleton =
      skeleton <$> walker.misshapen owner field expected value := by
  cases value with
  | null | stripped => rfl
  | _ => exact fallBack_skeleton _ _

/-- Dealing with unknown keys does not look at contents. -/
theorem settleUnknown_skeleton (members : List (String × Tree)) :
    walker.settleUnknown message (Members.mapValues skeleton members) =
      Members.mapValues skeleton (walker.settleUnknown message members) := by
  unfold settleUnknown
  cases walker.unknownFields with
  | keep => rfl
  | drop => exact Members.filter_mapValues message.isKnownKey skeleton members
  | strip =>
    dsimp only
    rw [Members.mapValues, Members.mapValues, List.map_map, List.map_map]
    refine List.map_congr_left fun member _ => ?_
    simp only [Function.comp_apply]
    split <;> rfl

section Entered

variable {enter : Enter}
  (enters : ∀ nested field value,
    enter nested field value.skeleton = skeleton <$> enter nested field value)

include enters

/-- The messages in a field are walked without a look at contents. -/
theorem walkNested_skeleton (field : Field) (nested : Message) (value : Tree) :
    walker.walkNested enter message field nested value.skeleton =
      skeleton <$> walker.walkNested enter message field nested value := by
  unfold walkNested
  cases field.cardinality with
  | singular => exact enters nested field value
  | repeated =>
    cases value with
    | list items =>
      simp only [skeleton_list, Walked.items_map (enters nested field), Functor.map_map]
    | _ => exact misshapen_skeleton _ _ _ _
  | map =>
    cases value with
    | object members =>
      simp only [skeleton_object, Walked.members_mapValues (enters nested field), Functor.map_map]
    | _ => exact misshapen_skeleton _ _ _ _

/-- A field is walked without a look at contents. -/
theorem walkField_skeleton (field : Field) (value : Tree) :
    walker.walkField enter message field value.skeleton =
      skeleton <$> walker.walkField enter message field value := by
  rw [walkField_eq, walkField_eq]
  cases walker.registry.outlook walker.policy field with
  | secret => rfl
  | scalar => rfl
  | missing typeName => exact fallBack_skeleton _ _
  | message nested =>
    dsimp only
    split
    · rfl
    · exact walkNested_skeleton enters field nested value

/-- A group is walked without a look at contents. -/
theorem walkGroup_skeleton (group : String) (value : Tree) :
    walker.walkGroup enter message group value.skeleton =
      Option.map skeleton <$> walker.walkGroup enter message group value := by
  have falls : ∀ problem, (some <$> walker.fallBack problem value.skeleton : Walked (Option Tree)) =
      Option.map skeleton <$> some <$> walker.fallBack problem value := by
    intro problem
    simp only [fallBack_skeleton, Functor.map_map, Option.map_some]
  match value with
  | .null | .stripped => rfl
  | .bool _ | .number _ | .string _ | .list _ => exact falls _
  | .object [] => exact falls _
  | .object (_ :: _ :: _) => exact falls _
  | .object [(active, inner)] =>
    have single : (Tree.object [(active, inner)]).skeleton = .object [(active, inner.skeleton)] :=
      rfl
    rw [single]
    unfold walkGroup
    dsimp only
    split
    · simp only [walkField_skeleton enters, bind_map_left, map_bind, map_pure, Option.map_some]
      rfl
    · cases walker.unknownFields <;> rfl

/-- Plain fields are walked without a look at contents. -/
theorem walkPlainFields_skeleton (fields : List Field) (members : List (String × Tree)) :
    walker.walkPlainFields enter message fields (Members.mapValues skeleton members) =
      Members.mapValues skeleton <$> walker.walkPlainFields enter message fields members := by
  induction fields generalizing members with
  | nil => rfl
  | cons field rest ih =>
    let step : Tree → Walked (Option Tree) := fun value =>
      some <$> walker.walkField enter message field value
    have natural : ∀ value, step (skeleton value) = Option.map skeleton <$> step value := by
      intro value
      simp only [step, walkField_skeleton enters, Functor.map_map, Option.map_some]
    simp only [walkPlainFields, Walked.atKey_mapValues natural, bind_map_left, map_bind, ih, step]

/-- Groups are walked without a look at contents. -/
theorem walkGroups_skeleton (groups : List String) (members : List (String × Tree)) :
    walker.walkGroups enter message groups (Members.mapValues skeleton members) =
      Members.mapValues skeleton <$> walker.walkGroups enter message groups members := by
  induction groups generalizing members with
  | nil => rfl
  | cons group rest ih =>
    have natural : ∀ value, walker.walkGroup enter message group (skeleton value) =
        Option.map skeleton <$> walker.walkGroup enter message group value :=
      walkGroup_skeleton enters group
    simp only [walkGroups, Walked.atKey_mapValues natural, bind_map_left, map_bind, ih]

/-- The members of a message are walked without a look at contents. -/
theorem walkMembers_skeleton (members : List (String × Tree)) :
    walker.walkMembers enter message (Members.mapValues skeleton members) =
      Members.mapValues skeleton <$> walker.walkMembers enter message members := by
  simp only [walkMembers, settleUnknown_skeleton, walkPlainFields_skeleton enters, bind_map_left,
    map_bind, walkGroups_skeleton enters]

end Entered

/-- A walk within any bound does not look at contents. -/
theorem walkWithin_skeleton (bound : Nat) (message : Message) (owner : Option Field)
    (value : Tree) :
    walker.walkWithin bound message owner value.skeleton =
      skeleton <$> walker.walkWithin bound message owner value := by
  induction bound generalizing message owner value with
  | zero =>
    cases value with
    | object members => rfl
    | _ => exact misshapen_skeleton _ _ _ _
  | succ bound ih =>
    cases value with
    | object members =>
      have enters := fun nested field part => ih nested (some field) part
      simp only [skeleton_object, walkWithin, walkMembers_skeleton enters, Functor.map_map]
    | _ => exact misshapen_skeleton _ _ _ _

/-- The walk of a skeleton is the skeleton of the walk, with the same problems. -/
theorem walkRoot_skeleton (walker : Walker) (reference : String) (tree : Tree) :
    walker.walkRoot reference tree.skeleton = skeleton <$> walker.walkRoot reference tree := by
  unfold walkRoot
  split
  · exact fallBack_skeleton _ _
  · split
    · rfl
    · rw [walkMessage, walkMessage, depth_skeleton]
      exact walkWithin_skeleton _ _ none tree

/-- Trees with the same skeleton meet the same problems in the same order. -/
theorem problems_walkRoot_eq_of_skeleton_eq {reference : String} {first second : Tree}
    (same : first.skeleton = second.skeleton) :
    (walker.walkRoot reference first).problems = (walker.walkRoot reference second).problems := by
  have blind : ∀ tree, (walker.walkRoot reference (skeleton tree)).problems =
      (walker.walkRoot reference tree).problems := by
    intro tree
    rw [walkRoot_skeleton, Walked.problems_map]
  rw [← blind first, same, blind second]

end Walker

namespace Config

variable (config : Config) (registry : Registry) (additional : AdditionalNames)
  (reference : String)

/-- Every record that is written while a document is sanitized reports a problem from the list that
the types and the reference determine, and documents with the same skeleton lead to the same
records. -/
theorem records_foreseen_and_blind :
    (∀ document : Json, ∀ record ∈
      (config.sanitizeDocument registry additional reference document).events.map Event.record,
      ∃ problem ∈ registry.foreseen reference,
        record =
          { message := "sanitizer fell back"
            details := [("error", problem.message), ("fallback", config.fallback.logWord),
              ("component", "protosanitizer")] }) ∧
    ∀ first second : Json, first.skeleton = second.skeleton →
      (config.sanitizeDocument registry additional reference first).events.map Event.record =
        (config.sanitizeDocument registry additional reference second).events.map
          Event.record := by
  refine ⟨fun document record written => ?_, fun first second same => ?_⟩
  · obtain ⟨event, emitted, rfl⟩ := List.mem_map.mp written
    obtain ⟨problem, reported, rfl⟩ := List.mem_map.mp emitted
    exact ⟨problem, Walker.mem_foreseen_of_mem_problems reported, rfl⟩
  · have trees : (Tree.ofJson first).skeleton = (Tree.ofJson second).skeleton := by
      rw [← ofJson_skeleton, ← ofJson_skeleton, same]
    simp only [sanitizeDocument, redactTree]
    rw [Walker.problems_walkRoot_eq_of_skeleton_eq trees]

/-- Two orders that differ in a card number only, each with an object in the place of its list of
lines, lead to the same record, which is one of those that were foreseen. -/
theorem order_records_blind :
    let order := Message.ofDeclarations "shop.Order"
      [.field (.scalar "card"), .field (Field.message "lines" ".shop.Order").repeated]
    let registry := Registry.ofList [order]
    let document := fun card =>
      Json.object [("card", .string card), ("lines", .object [("42", .string card)])]
    let records := fun card =>
      (sanitizeDocument {} registry .empty "shop.Order" (document card)).events.map Event.record
    (document "4111").skeleton = (document "5500 0000").skeleton ∧
      records "4111" = records "5500 0000" ∧
      ∃ record ∈ records "4111",
        record.details = [("error", "shop.Order.lines: expected list, found object"),
          ("fallback", "Strip"), ("component", "protosanitizer")] ∧
        ∃ problem ∈ registry.foreseen "shop.Order",
          record.details = [("error", problem.message), ("fallback", "Strip"),
            ("component", "protosanitizer")] := by
  intro order registry document records
  have same : (document "4111").skeleton = (document "5500 0000").skeleton := rfl
  have general := records_foreseen_and_blind {} registry .empty "shop.Order"
  have written : records "4111" = [Event.record
      (.fellBack (.unexpectedShape "shop.Order" "lines" .list .object) .strip)] := by decide
  have member : Event.record (.fellBack (.unexpectedShape "shop.Order" "lines" .list .object)
      .strip) ∈ records "4111" := by
    rw [written]
    exact List.mem_cons_self
  obtain ⟨problem, foreseen, recorded⟩ := general.1 _ _ member
  exact ⟨same, general.2 _ _ same, _, member, by decide, problem, foreseen,
    congrArg Record.details recorded⟩

end Config

end Redaction

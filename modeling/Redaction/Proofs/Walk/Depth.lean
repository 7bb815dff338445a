import Redaction.Proofs.Tree.Redacted
import Redaction.Proofs.Walk.Fate

/-!
# Walks without a bound

A walk only redacts, so it makes no tree deeper, and the bound within which a walk takes place does
not matter as long as the tree is no deeper. The walk of a message is therefore described by
equations that mention no bound.
-/

namespace Redaction

open Schema Redaction.Tree

/-- The messages in the value of a field: one, those of a list or those of a map. -/
def Tree.parts : Cardinality → Tree → List Tree
  | .singular, value => [value]
  | .repeated, .list items => items
  | .map, .object members => members.map Prod.snd
  | _, _ => []

/-- A part is no deeper than the whole. -/
theorem Tree.depth_le_of_mem_parts {cardinality : Cardinality} {value part : Tree}
    (member : part ∈ value.parts cardinality) : part.depth ≤ value.depth := by
  cases cardinality with
  | singular => exact Nat.le_of_eq (congrArg depth (List.mem_singleton.mp member))
  | repeated =>
    cases value with
    | list items =>
      have inside : part.depth ≤ itemsDepth items :=
        itemsDepth_le_iff.mp (Nat.le_refl _) part member
      simp only [depth]
      omega
    | _ => cases member
  | map =>
    cases value with
    | object members =>
      obtain ⟨entry, present, rfl⟩ := List.mem_map.mp member
      have inside : entry.2.depth ≤ membersDepth members :=
        membersDepth_le_iff.mp (Nat.le_refl _) entry present
      simp only [depth]
      omega
    | _ => cases member

namespace Walker

variable {walker : Walker} {enter : Enter} {message : Message}

/-- A fallback takes a value out or leaves it alone. -/
theorem redacted_fallBack {mayDrop : Prop} (problem : Problem) (value : Tree) :
    Redacted mayDrop value (walker.fallBack problem value).value := by
  unfold fallBack
  cases walker.fallback with
  | strip => exact .stripped value
  | passthrough => exact .refl value

/-- A value of the wrong shape is taken out or left alone. -/
theorem redacted_misshapen {mayDrop : Prop} (owner field : String) (expected : Expectation)
    (value : Tree) :
    Redacted mayDrop value (walker.misshapen owner field expected value).value := by
  unfold misshapen
  split
  · exact .refl _
  · exact .refl _
  · exact redacted_fallBack _ _

/-- The messages in a field are redacted if a single message is. -/
theorem redacted_walkNested {mayDrop : Prop} {field : Field} {nested : Message}
    (enters : ∀ part, Redacted mayDrop part (enter nested field part).value) (value : Tree) :
    Redacted mayDrop value (walker.walkNested enter message field nested value).value := by
  unfold walkNested
  cases field.cardinality with
  | singular => exact enters value
  | repeated =>
    dsimp only
    split
    · rw [Walked.value_map, Walked.value_items]
      exact .list enters _
    · exact redacted_misshapen _ _ _ _
  | map =>
    dsimp only
    split
    · have rule : Redacted.Rule mayDrop fun _ part => some (enter nested field part).value :=
        fun _ part => enters part
      rw [Walked.value_map, Walked.value_members, Members.mapValues_eq_rewrite]
      exact .object rule _
    · exact redacted_misshapen _ _ _ _

/-- Whether messages inside fields are only redacted, where members may be removed only if the
proposition holds. -/
def Redacts (mayDrop : Prop) (enter : Enter) : Prop :=
  ∀ nested field part, Redacted mayDrop part (enter nested field part).value

/-- The value of a field is redacted if a single message is. -/
theorem redacted_walkField {mayDrop : Prop}
    (enters : Redacts mayDrop enter)
    (field : Field) (value : Tree) :
    Redacted mayDrop value (walker.walkField enter message field value).value := by
  rw [walkField_eq]
  cases walker.registry.outlook walker.policy field with
  | secret => exact .stripped value
  | scalar => exact .refl value
  | missing typeName => exact redacted_fallBack _ _
  | message nested =>
    dsimp only
    split
    · exact .refl value
    · exact redacted_walkNested (fun part => enters nested field part) value

/-- The value of a group is redacted, or the group goes where unknown data is dropped. -/
theorem redacted_walkGroup
    (enters : Redacts (walker.unknownFields = .drop) enter)
    (group : String) (value : Tree) :
    (walker.walkGroup enter message group value).value.elim (walker.unknownFields = .drop)
      (Redacted (walker.unknownFields = .drop) value) := by
  unfold walkGroup
  split
  · exact Redacted.refl _
  · exact Redacted.refl _
  · next active inner =>
    split
    · exact Redacted.member [] active [] (redacted_walkField enters _ inner)
    · cases mode : walker.unknownFields with
      | keep => exact Redacted.refl _
      | strip => exact Redacted.member [] active [] (.stripped inner)
      | drop => exact rfl
  · exact redacted_fallBack _ _
  · exact redacted_fallBack _ _
  · exact redacted_fallBack _ _

/-- Dealing with unknown keys redacts. -/
theorem rule_settled : Redacted.Rule (walker.unknownFields = .drop) (walker.settled message) := by
  intro key value
  unfold settled
  split
  · exact Redacted.refl value
  · split
    · exact Redacted.refl value
    · exact Redacted.stripped value
    · next mode => exact mode

/-- Plain fields redact. -/
theorem redacted_plainFate {mayDrop : Prop}
    (enters : Redacts mayDrop enter)
    (fields : List Field) (key : String) (value : Tree) :
    Redacted mayDrop value (walker.plainFate enter message fields key value) := by
  induction fields generalizing value with
  | nil => exact .refl value
  | cons field rest ih =>
    rw [plainFate]
    split
    · exact (redacted_walkField enters field value).trans (ih _)
    · exact ih value

/-- Groups redact. -/
theorem rule_groupFate
    (enters : Redacts (walker.unknownFields = .drop) enter)
    (groups : List String) :
    Redacted.Rule (walker.unknownFields = .drop) (walker.groupFate enter message groups) := by
  induction groups with
  | nil => exact fun _ value => Redacted.refl value
  | cons group rest ih =>
    have first : Redacted.Rule (walker.unknownFields = .drop) fun key value =>
        if key = group then (walker.walkGroup enter message group value).value
        else some value := by
      intro key value
      dsimp only
      split
      · exact redacted_walkGroup enters group value
      · exact Redacted.refl value
    exact first.bind ih

/-- What becomes of a member is a redacted value, or none where unknown data is dropped. -/
theorem rule_fate
    (enters : Redacts (walker.unknownFields = .drop) enter) :
    Redacted.Rule (walker.unknownFields = .drop) (walker.fate enter message) := by
  have plain : Redacted.Rule (walker.unknownFields = .drop) fun key value =>
      some (walker.plainFate enter message message.plainFields key value) :=
    fun key value => redacted_plainFate enters _ key value
  exact rule_settled.bind (plain.bind (rule_groupFate enters message.groups))

/-- A walk within any bound only redacts. -/
theorem redacted_walkWithin (bound : Nat) (message : Message) (owner : Option Field)
    (value : Tree) :
    Redacted (walker.unknownFields = .drop) value
      (walker.walkWithin bound message owner value).value := by
  induction bound generalizing message owner value with
  | zero =>
    unfold walkWithin
    split
    · exact .stripped _
    · exact redacted_misshapen _ _ _ _
  | succ bound ih =>
    unfold walkWithin
    split
    · rw [Walked.value_map, value_walkMembers]
      exact .object (rule_fate fun nested field part => ih nested (some field) part) _
    · exact redacted_misshapen _ _ _ _

/-- A walk within any bound only redacts the messages inside fields. -/
theorem redacts_walkWithin (walker : Walker) (bound : Nat) :
    Redacts (walker.unknownFields = .drop) fun nested field value =>
      walker.walkWithin bound nested (some field) value :=
  fun nested field value => redacted_walkWithin bound nested (some field) value

/-- A walk only redacts. -/
theorem redacted_walkMessage (message : Message) (owner : Option Field) (value : Tree) :
    Redacted (walker.unknownFields = .drop) value (walker.walkMessage message owner value).value :=
  redacted_walkWithin _ message owner value

/-- Only what is done to the messages in a field matters. -/
theorem walkNested_congr {other : Enter} {field : Field} {nested : Message} {value : Tree}
    (same : ∀ part ∈ value.parts field.cardinality,
      enter nested field part = other nested field part) :
    walker.walkNested enter message field nested value =
      walker.walkNested other message field nested value := by
  unfold walkNested
  cases h : field.cardinality with
  | singular => exact same value (h ▸ List.mem_singleton.mpr rfl)
  | repeated =>
    rw [h] at same
    dsimp only
    split
    · next items =>
      have each : ∀ item ∈ items, enter nested field item = other nested field item := same
      rw [Walked.items_congr each]
    · rfl
  | map =>
    rw [h] at same
    dsimp only
    split
    · next members =>
      rw [Walked.members_congr fun member present =>
        same member.2 (List.mem_map.mpr ⟨member, present, rfl⟩)]
    · rfl

/-- Only what is done to the messages in a field matters. -/
theorem walkField_congr {other : Enter} {field : Field} {value : Tree}
    (same : ∀ nested, ∀ part ∈ value.parts field.cardinality,
      enter nested field part = other nested field part) :
    walker.walkField enter message field value = walker.walkField other message field value := by
  rw [walkField_eq, walkField_eq]
  cases walker.registry.outlook walker.policy field with
  | secret => rfl
  | scalar => rfl
  | missing typeName => rfl
  | message nested =>
    dsimp only
    rw [walkNested_congr (same nested)]

/-- Only what is done to the value of the alternative in use matters. -/
theorem walkGroup_congr {other : Enter} {group : String} {value : Tree}
    (same : ∀ active inner field, value = .object [(active, inner)] →
      walker.walkField enter message field inner = walker.walkField other message field inner) :
    walker.walkGroup enter message group value = walker.walkGroup other message group value := by
  unfold walkGroup
  split
  · rfl
  · rfl
  · next active inner =>
    split
    · next field _ => rw [same active inner field rfl]
    · rfl
  · rfl
  · rfl
  · rfl

section Bounded

variable {other : Enter} {bound : Nat} {members : List (String × Tree)}

/-- Walking the values of one key does not make the members deeper. -/
theorem depth_atKey_le {key : String} {step : Tree → Walked (Option Tree)}
    (shallow : ∀ value kept, (step value).value = some kept → kept.depth ≤ value.depth)
    (bounded : ∀ member ∈ members, member.2.depth ≤ bound) :
    ∀ member ∈ (Walked.atKey key step members).value, member.2.depth ≤ bound := by
  rintro ⟨name, kept⟩ present
  rw [Walked.value_atKey] at present
  obtain ⟨value, before, rewritten⟩ := Members.mem_rewrite.mp present
  have low := bounded (name, value) before
  split at rewritten
  · exact Nat.le_trans (shallow value kept rewritten) low
  · exact Option.some.inj rewritten ▸ low

/-- Dealing with unknown keys does not make the members deeper. -/
theorem depth_settleUnknown_le (bounded : ∀ member ∈ members, member.2.depth ≤ bound) :
    ∀ member ∈ walker.settleUnknown message members, member.2.depth ≤ bound := by
  rintro ⟨key, kept⟩ present
  rw [settleUnknown_eq] at present
  obtain ⟨value, before, settled⟩ := Members.mem_rewrite.mp present
  exact Nat.le_trans (rule_settled.redacted settled).depth_le (bounded _ before)

/-- Walking a plain field does not make the members deeper. -/
theorem depth_atKey_walkField_le
    (enters : Redacts (walker.unknownFields = .drop) enter)
    (field : Field) (bounded : ∀ member ∈ members, member.2.depth ≤ bound) :
    ∀ member ∈ (Walked.atKey field.name
      (fun value => some <$> walker.walkField enter message field value) members).value,
      member.2.depth ≤ bound := by
  refine depth_atKey_le (fun value kept walked => ?_) bounded
  rw [Walked.value_map] at walked
  exact Option.some.inj walked ▸ (redacted_walkField enters field value).depth_le

/-- Walking a group does not make the members deeper. -/
theorem depth_atKey_walkGroup_le
    (enters : Redacts (walker.unknownFields = .drop) enter)
    (group : String) (bounded : ∀ member ∈ members, member.2.depth ≤ bound) :
    ∀ member ∈ (Walked.atKey group (walker.walkGroup enter message group) members).value,
      member.2.depth ≤ bound := by
  refine depth_atKey_le (fun value kept walked => ?_) bounded
  have redacted : (walker.walkGroup enter message group value).value.elim
      (walker.unknownFields = .drop) (Redacted (walker.unknownFields = .drop) value) :=
    redacted_walkGroup enters group value
  rw [walked] at redacted
  exact Redacted.depth_le redacted

/-- Two ways of entering messages that agree up to a depth give the same walk of plain fields up to
this depth. -/
theorem walkPlainFields_congr (fields : List Field)
    (enters : Redacts (walker.unknownFields = .drop) other)
    (same : ∀ nested field part, part.depth ≤ bound →
      enter nested field part = other nested field part)
    (bounded : ∀ member ∈ members, member.2.depth ≤ bound) :
    walker.walkPlainFields enter message fields members =
        walker.walkPlainFields other message fields members ∧
      ∀ member ∈ (walker.walkPlainFields other message fields members).value,
        member.2.depth ≤ bound := by
  induction fields generalizing members with
  | nil => exact ⟨rfl, bounded⟩
  | cons field rest ih =>
    have first : Walked.atKey field.name
          (fun value => some <$> walker.walkField enter message field value) members =
        Walked.atKey field.name
          (fun value => some <$> walker.walkField other message field value) members := by
      refine Walked.atKey_congr fun value present => ?_
      rw [walkField_congr fun nested part inside => same nested field part
        (Nat.le_trans (depth_le_of_mem_parts inside) (bounded _ present))]
    obtain ⟨later, low⟩ := ih (depth_atKey_walkField_le enters field bounded)
    rw [walkPlainFields, walkPlainFields, first]
    exact ⟨Walked.bind_congr later, low⟩

/-- Two ways of entering messages that agree up to a depth give the same walk of groups up to this
depth. -/
theorem walkGroups_congr (groups : List String)
    (enters : Redacts (walker.unknownFields = .drop) other)
    (same : ∀ nested field part, part.depth ≤ bound →
      enter nested field part = other nested field part)
    (bounded : ∀ member ∈ members, member.2.depth ≤ bound) :
    walker.walkGroups enter message groups members =
      walker.walkGroups other message groups members := by
  induction groups generalizing members with
  | nil => rfl
  | cons group rest ih =>
    have first : Walked.atKey group (walker.walkGroup enter message group) members =
        Walked.atKey group (walker.walkGroup other message group) members := by
      refine Walked.atKey_congr fun value present => ?_
      refine walkGroup_congr fun active inner field whole => ?_
      have low := bounded _ present
      rw [whole] at low
      simp only [depth, membersDepth] at low
      refine walkField_congr fun nested part inside => same nested field part ?_
      have below := depth_le_of_mem_parts inside
      omega
    rw [walkGroups, walkGroups, first]
    exact Walked.bind_congr (ih (depth_atKey_walkGroup_le enters group bounded))

/-- Two ways of entering messages that agree up to a depth give the same walk of members up to this
depth. -/
theorem walkMembers_congr
    (enters : Redacts (walker.unknownFields = .drop) other)
    (same : ∀ nested field part, part.depth ≤ bound →
      enter nested field part = other nested field part)
    (bounded : ∀ member ∈ members, member.2.depth ≤ bound) :
    walker.walkMembers enter message members = walker.walkMembers other message members := by
  obtain ⟨plain, low⟩ : walker.walkPlainFields enter message message.plainFields _ =
      walker.walkPlainFields other message message.plainFields _ ∧ _ :=
    walkPlainFields_congr message.plainFields enters same (depth_settleUnknown_le bounded)
  rw [walkMembers, walkMembers, plain]
  exact Walked.bind_congr (walkGroups_congr message.groups enters same low)

end Bounded

/-- What is no object is no message. -/
theorem walkWithin_of_members?_eq_none (walker : Walker) (bound : Nat) (message : Message)
    (owner : Option Field) {value : Tree} (shapeless : value.members? = none) :
    walker.walkWithin bound message owner value =
      walker.misshapen message.name ((owner.map Field.name).getD "") .object value := by
  cases value with
  | object members => cases shapeless
  | _ => cases bound <;> rfl

/-- Two bounds that a tree keeps lead to the same walk. -/
theorem walkWithin_congr {first second : Nat} {value : Tree} (message : Message)
    (owner : Option Field) (left : value.depth ≤ first) (right : value.depth ≤ second) :
    walker.walkWithin first message owner value = walker.walkWithin second message owner value := by
  induction first generalizing second message owner value with
  | zero =>
    cases value with
    | object members =>
      simp only [depth] at left
      omega
    | _ => cases second <;> rfl
  | succ first ih =>
    cases value with
    | object members =>
      simp only [depth] at left right
      obtain ⟨second, rfl⟩ : ∃ smaller, second = smaller + 1 := ⟨second - 1, by omega⟩
      have bounded := membersDepth_le_iff.mp (Nat.le_refl (membersDepth members))
      have same : ∀ nested field part, part.depth ≤ membersDepth members →
          walker.walkWithin first nested (some field) part =
            walker.walkWithin second nested (some field) part :=
        fun nested field part low => ih nested (some field) (by omega) (by omega)
      rw [walkWithin, walkWithin, walkMembers_congr (walker.redacts_walkWithin second) same bounded]
    | _ => cases second <;> rfl

/-- Walks a message inside a field. -/
def enterMessage (walker : Walker) : Enter := fun nested field value =>
  walker.walkMessage nested (some field) value

/-- Messages inside fields are only redacted. -/
theorem redacts_enterMessage (walker : Walker) :
    Redacts (walker.unknownFields = .drop) walker.enterMessage :=
  fun nested field value => redacted_walkMessage nested (some field) value

/-- A bound that a tree keeps does not matter. -/
theorem walkWithin_eq_walkMessage {bound : Nat} {value : Tree} (message : Message)
    (owner : Option Field) (low : value.depth ≤ bound) :
    walker.walkWithin bound message owner value = walker.walkMessage message owner value :=
  walkWithin_congr message owner low (Nat.le_refl _)

/-- An object is walked member by member, and the messages inside in the same way. -/
theorem walkMessage_object (walker : Walker) (message : Message) (owner : Option Field)
    (members : List (String × Tree)) :
    walker.walkMessage message owner (.object members) =
      Tree.object <$> walker.walkMembers walker.enterMessage message members := by
  have same : ∀ nested field part, part.depth ≤ membersDepth members →
      walker.walkWithin (membersDepth members) nested (some field) part =
        walker.enterMessage nested field part :=
    fun nested field part low => walkWithin_eq_walkMessage nested (some field) low
  have bounded := membersDepth_le_iff.mp (Nat.le_refl (membersDepth members))
  rw [walkMessage, depth, walkWithin,
    walkMembers_congr walker.redacts_enterMessage same bounded]

end Walker

end Redaction

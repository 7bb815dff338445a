import Redaction.Proofs.Schema.Reachable
import Redaction.Proofs.Walk.Agreement
import Redaction.Proofs.Walk.Depth

/-!
# Messages of harmless types

Where unknown data is kept, a walk changes nothing in messages of harmless types, unless it falls
back: no field is secret there and no type is missing, so there is nothing to take out.
-/

namespace Redaction

open Schema Redaction.Tree

namespace Walker

variable {walker : Walker} {enter : Enter} {message : Message}

/-- Whether values that do not fit the schema pass. -/
def Lenient (walker : Walker) : Prop := walker.fallback = .passthrough

/-- A fallback leaves a value alone if it lets the value pass. -/
theorem leavesAlone_fallBack (problem : Problem) (value : Tree) :
    (walker.fallBack problem value).LeavesAlone walker.Lenient value := by
  rintro (calm | calm)
  · rw [fallBack, calm]
  · cases calm

/-- A value of the wrong shape is left alone if it may pass. -/
theorem leavesAlone_misshapen (owner field : String) (expected : Expectation) (value : Tree) :
    (walker.misshapen owner field expected value).LeavesAlone walker.Lenient value := by
  unfold misshapen
  split
  · exact .pure _
  · exact .pure _
  · exact leavesAlone_fallBack _ _

/-- The messages in a field are left alone if each of them is. -/
theorem leavesAlone_walkNested {field : Field} {nested : Message} {value : Tree}
    (each : ∀ part ∈ value.parts field.cardinality,
      (enter nested field part).LeavesAlone walker.Lenient part) :
    (walker.walkNested enter message field nested value).LeavesAlone walker.Lenient value := by
  unfold walkNested
  cases h : field.cardinality with
  | singular => exact each value (h ▸ List.mem_singleton.mpr rfl)
  | repeated =>
    rw [h] at each
    dsimp only
    split
    · exact (Walked.LeavesAlone.items each).map Tree.list
    · exact leavesAlone_misshapen _ _ _ _
  | map =>
    rw [h] at each
    dsimp only
    split
    · refine (Walked.LeavesAlone.members fun member present => ?_).map Tree.object
      exact each member.2 (List.mem_map.mpr ⟨member, present, rfl⟩)
    · exact leavesAlone_misshapen _ _ _ _

section Harmless

variable {bound : Nat}
  (visible : ∀ field ∈ message.fields, walker.policy.isSensitive field = false)
  (resolved : ∀ field ∈ message.fields, ∀ typeName, field.typeName? = some typeName →
    ∃ nested, walker.registry.nested? field = some nested ∧
      walker.registry.Harmless walker.policy nested.name)
  (enters : ∀ nested field part, nested ∈ walker.registry.messages →
    walker.registry.Harmless walker.policy nested.name → part.depth ≤ bound →
    (enter nested field part).LeavesAlone walker.Lenient part)

include visible resolved enters

/-- The value of a field of a harmless type is left alone. -/
theorem leavesAlone_walkField {field : Field} (declared : field ∈ message.fields) {value : Tree}
    (low : value.depth ≤ bound) :
    (walker.walkField enter message field value).LeavesAlone walker.Lenient value := by
  rw [walkField_eq]
  cases h : walker.registry.outlook walker.policy field with
  | secret =>
    have secret := Registry.outlook_eq_secret_iff.mp h
    rw [visible field declared] at secret
    cases secret
  | scalar => exact .pure value
  | missing typeName =>
    obtain ⟨_, refers, lost⟩ := Registry.outlook_eq_missing_iff.mp h
    obtain ⟨nested, found, _⟩ := resolved field declared typeName refers
    rw [Registry.nested?, refers, Option.bind_some, lost] at found
    cases found
  | message nested =>
    obtain ⟨_, found⟩ := Registry.outlook_eq_message_iff.mp h
    obtain ⟨typeName, refers, _⟩ := Option.bind_eq_some_iff.mp found
    obtain ⟨other, same, harmless⟩ := resolved field declared typeName refers
    obtain rfl := Option.some.inj (found.symm.trans same)
    dsimp only
    split
    · exact .pure value
    · exact leavesAlone_walkNested fun part inside =>
        enters nested field part (Registry.mem_of_nested?_eq_some found) harmless
          (Nat.le_trans (depth_le_of_mem_parts inside) low)

/-- Plain fields leave the members of a message of a harmless type alone. -/
theorem leavesAlone_walkPlainFields {fields : List Field}
    (declared : ∀ field ∈ fields, field ∈ message.fields) {members : List (String × Tree)}
    (low : ∀ member ∈ members, member.2.depth ≤ bound) :
    (walker.walkPlainFields enter message fields members).LeavesAlone walker.Lenient members := by
  induction fields with
  | nil => exact .pure _
  | cons field rest ih =>
    have later := ih fun other member => declared other (List.mem_cons_of_mem _ member)
    refine Walked.LeavesAlone.bind (.atKey fun value present => ?_) later
    exact (leavesAlone_walkField visible resolved enters (declared field List.mem_cons_self)
      (low _ present)).map some

variable (keeps : walker.unknownFields = .keep)

include keeps

/-- The value of a group of a harmless type is left alone. -/
theorem leavesAlone_walkGroup (group : String) {value : Tree} (low : value.depth ≤ bound) :
    (walker.walkGroup enter message group value).LeavesAlone walker.Lenient (some value) := by
  unfold walkGroup
  split
  · exact .pure _
  · exact .pure _
  · next active inner =>
    simp only [depth, membersDepth] at low
    split
    · next field first =>
      have declared := List.mem_of_mem_filter (List.mem_of_find?_eq_some first)
      exact (leavesAlone_walkField visible resolved enters declared (by omega)).bind (.pure _)
    · rw [keeps]
      exact .pure _
  · exact (leavesAlone_fallBack _ _).map some
  · exact (leavesAlone_fallBack _ _).map some
  · exact (leavesAlone_fallBack _ _).map some

/-- Groups leave the members of a message of a harmless type alone. -/
theorem leavesAlone_walkGroups (groups : List String) {members : List (String × Tree)}
    (low : ∀ member ∈ members, member.2.depth ≤ bound) :
    (walker.walkGroups enter message groups members).LeavesAlone walker.Lenient members := by
  induction groups with
  | nil => exact .pure _
  | cons group rest ih =>
    refine Walked.LeavesAlone.bind (.atKey fun value present => ?_) ih
    exact leavesAlone_walkGroup visible resolved enters keeps group (low _ present)

/-- The members of a message of a harmless type are left alone. -/
theorem leavesAlone_walkMembers {members : List (String × Tree)}
    (low : ∀ member ∈ members, member.2.depth ≤ bound) :
    (walker.walkMembers enter message members).LeavesAlone walker.Lenient members := by
  have settled : walker.settleUnknown message members = members := by rw [settleUnknown, keeps]
  have declared : ∀ field ∈ message.plainFields, field ∈ message.fields :=
    fun field member => List.mem_of_mem_filter member
  rw [walkMembers, settled]
  exact (leavesAlone_walkPlainFields visible resolved enters declared low).bind
    (leavesAlone_walkGroups visible resolved enters keeps message.groups low)

end Harmless

/-- Where unknown data is kept, messages of harmless types are left alone. -/
theorem leavesAlone_walkWithin (undotted : walker.registry.Undotted)
    (keeps : walker.unknownFields = .keep) (bound : Nat) (message : Message)
    (owner : Option Field) (value : Tree) (member : message ∈ walker.registry.messages)
    (harmless : walker.registry.Harmless walker.policy message.name)
    (low : value.depth ≤ bound) :
    (walker.walkWithin bound message owner value).LeavesAlone walker.Lenient value := by
  induction bound generalizing message owner value with
  | zero =>
    unfold walkWithin
    split
    · simp only [depth] at low
      omega
    · exact leavesAlone_misshapen _ _ _ _
  | succ bound ih =>
    unfold walkWithin
    split
    · next members =>
      simp only [depth] at low
      refine Walked.LeavesAlone.map Tree.object (leavesAlone_walkMembers (harmless.visible member)
        (fun field declared typeName refers => harmless.nested undotted member declared refers)
        (fun nested field part known safe below => ih nested (some field) part known safe below)
        keeps (membersDepth_le_iff.mp (by omega)))
    · exact leavesAlone_misshapen _ _ _ _

end Walker

end Redaction

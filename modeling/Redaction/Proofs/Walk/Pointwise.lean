import Redaction.Proofs.Schema.WellNamed
import Redaction.Proofs.Walk.Fate

/-!
# Each member by itself

In a message of a well-named type the passes of a walk touch different members: a key belongs to a
plain field, to a group or to neither. So each member is treated once and by itself, and the
problems are those that the fields and groups meet in the members as they were before the walk.
-/

namespace Redaction

open Schema

namespace Walker

variable (walker : Walker) (enter : Enter) (message : Message)

/-- What becomes of the value of a key by itself: what a plain field or a group makes of it, or what
the rule for unknown fields says. -/
def treat (key : String) (value : Tree) : Option Tree :=
  match message.plainField? key with
  | some field => some (walker.walkField enter message field value).value
  | none =>
    if key ∈ message.groups then (walker.walkGroup enter message key value).value
    else
      match walker.unknownFields with
      | .keep => some value
      | .strip => some .stripped
      | .drop => none

/-- In a group, the value of a declared alternative is walked as a field. -/
theorem walkGroup_of_alternative?_eq_some {group active : String} {field : Field}
    (declared : message.alternative? group active = some field) (inner : Tree) :
    walker.walkGroup enter message group (.object [(active, inner)]) =
      (fun inner => some (Tree.object [(active, inner)])) <$>
        walker.walkField enter message field inner := by
  unfold Message.alternative? at declared
  unfold walkGroup
  dsimp only
  rw [declared]
  rfl

/-- In a group, an alternative that is not declared is treated as the rule for unknown fields says,
except that it is not removed without the group. -/
theorem walkGroup_of_alternative?_eq_none {group active : String}
    (unknown : message.alternative? group active = none) (inner : Tree) :
    walker.walkGroup enter message group (.object [(active, inner)]) =
      match walker.unknownFields with
      | .keep => pure (some (.object [(active, inner)]))
      | .strip => pure (some (.object [(active, .stripped)]))
      | .drop => pure none := by
  unfold Message.alternative? at unknown
  unfold walkGroup
  cases walker.unknownFields <;> simp only [unknown]

/-- Plain fields of other names do nothing to a value. -/
theorem plainFate_of_ne {fields : List Field} {key : String} (value : Tree)
    (foreign : ∀ field ∈ fields, field.name ≠ key) :
    walker.plainFate enter message fields key value = value := by
  induction fields with
  | nil => rfl
  | cons field rest ih =>
    rw [plainFate, if_neg (foreign field List.mem_cons_self).symm]
    exact ih fun other later => foreign other (List.mem_cons_of_mem _ later)

/-- Of plain fields with distinct names, the one that has the key walks the value. -/
theorem plainFate_of_mem {fields : List Field} (distinct : (fields.map Field.name).Nodup)
    {field : Field} (member : field ∈ fields) (value : Tree) :
    walker.plainFate enter message fields field.name value =
      (walker.walkField enter message field value).value := by
  induction fields generalizing value with
  | nil => cases member
  | cons first rest ih =>
    rw [List.map_cons, List.nodup_cons] at distinct
    rw [plainFate]
    rcases List.mem_cons.mp member with rfl | later
    · rw [if_pos rfl]
      refine plainFate_of_ne walker enter message _ fun other present same => ?_
      exact distinct.1 (List.mem_map.mpr ⟨other, present, same⟩)
    · have different : field.name ≠ first.name := fun same =>
        distinct.1 (List.mem_map.mpr ⟨field, later, same⟩)
      rw [if_neg different]
      exact ih distinct.2 later value

/-- Groups of other names do nothing to a value. -/
theorem groupFate_of_not_mem {groups : List String} {key : String} (value : Tree)
    (foreign : key ∉ groups) : walker.groupFate enter message groups key value = some value := by
  induction groups with
  | nil => rfl
  | cons group rest ih =>
    rw [groupFate, if_neg (List.ne_of_not_mem_cons foreign), Option.bind_some]
    exact ih (List.not_mem_of_not_mem_cons foreign)

/-- Of groups with distinct names, the one that has the key walks the value. -/
theorem groupFate_of_mem {groups : List String} (distinct : groups.Nodup) {key : String}
    (member : key ∈ groups) (value : Tree) :
    walker.groupFate enter message groups key value =
      (walker.walkGroup enter message key value).value := by
  induction groups with
  | nil => cases member
  | cons group rest ih =>
    rw [List.nodup_cons] at distinct
    rw [groupFate]
    by_cases here : key = group
    · subst here
      have untouched : walker.groupFate enter message rest key = some :=
        funext fun value => groupFate_of_not_mem walker enter message value distinct.1
      rw [if_pos rfl, untouched, Option.bind_fun_some]
    · rw [if_neg here, Option.bind_some]
      exact ih distinct.2 ((List.mem_cons.mp member).resolve_left here)

/-- What becomes of a value in all passes together is what becomes of it by itself. -/
theorem fate_eq_treat (apart : message.KeysApart) (key : String) (value : Tree) :
    walker.fate enter message key value = walker.treat enter message key value := by
  rw [fate, treat]
  cases plain : message.plainField? key with
  | some field =>
    obtain ⟨member, rfl⟩ := (find?_name_eq_some_iff apart.plain).mp plain
    have known : message.isKnownKey field.name = true :=
      Message.isKnownKey_iff.mpr (.inl ⟨field, member, rfl⟩)
    rw [settled, if_pos known, Option.bind_some,
      groupFate_of_not_mem walker enter message _ (apart.groups field member),
      plainFate_of_mem walker enter message apart.plain member]
  | none =>
    have foreign : ∀ field ∈ message.plainFields, field.name ≠ key :=
      find?_name_eq_none_iff.mp plain
    dsimp only
    by_cases listed : key ∈ message.groups
    · have known : message.isKnownKey key = true := Message.isKnownKey_iff.mpr (.inr listed)
      rw [settled, if_pos known, if_pos listed, Option.bind_some,
        plainFate_of_ne walker enter message value foreign,
        groupFate_of_mem walker enter message message.groups_nodup listed]
    · have unknown : ¬ message.isKnownKey key = true := by
        rw [Message.isKnownKey_iff]
        rintro (⟨field, member, same⟩ | member)
        · exact foreign field member same
        · exact listed member
      have untouched : ∀ value, walker.groupFate enter message message.groups key
          (walker.plainFate enter message message.plainFields key value) = some value := by
        intro value
        rw [plainFate_of_ne walker enter message value foreign,
          groupFate_of_not_mem walker enter message value listed]
      simp only [untouched, Option.bind_fun_some]
      rw [settled, if_neg unknown]
      refine Eq.trans ?_ (if_neg listed).symm
      cases walker.unknownFields <;> rfl

/-- The members of a message of a well-named type are treated one by one. -/
theorem value_walkMembers_eq_treat (named : message.WellNamed) (members : List (String × Tree)) :
    (walker.walkMembers enter message members).value =
      Members.rewrite (walker.treat enter message) members := by
  rw [value_walkMembers]
  exact Members.rewrite_congr fun key value _ =>
    fate_eq_treat walker enter message named.keysApart key value

/-- The problems that a plain field meets in the members of a message. -/
def fieldProblems (members : List (String × Tree)) (field : Field) : List Problem :=
  Members.gather field.name (fun value => (walker.walkField enter message field value).problems)
    members

/-- The problems that a group meets in the members of a message. -/
def groupProblems (members : List (String × Tree)) (group : String) : List Problem :=
  Members.gather group (fun value => (walker.walkGroup enter message group value).problems) members

/-- Plain fields with distinct names do not see what the others did. -/
theorem problems_walkPlainFields {fields : List Field} (distinct : (fields.map Field.name).Nodup)
    (members : List (String × Tree)) :
    (walker.walkPlainFields enter message fields members).problems =
      fields.flatMap (walker.fieldProblems enter message members) := by
  induction fields generalizing members with
  | nil => rfl
  | cons field rest ih =>
    rw [List.map_cons, List.nodup_cons] at distinct
    rw [walkPlainFields, Walked.problems_bind, Walked.problems_atKey, ih distinct.2,
      List.flatMap_cons, Walked.value_atKey]
    refine congrArg₂ _ (Members.gather_congr fun value _ => Walked.problems_map some _)
      (List.flatMap_congr fun other present => Members.gather_rewrite fun value => ?_)
    have different : other.name ≠ field.name := fun same =>
      distinct.1 (List.mem_map.mpr ⟨other, present, same⟩)
    rw [if_neg different]

/-- Groups with distinct names do not see what the others did. -/
theorem problems_walkGroups {groups : List String} (distinct : groups.Nodup)
    (members : List (String × Tree)) :
    (walker.walkGroups enter message groups members).problems =
      groups.flatMap (walker.groupProblems enter message members) := by
  induction groups generalizing members with
  | nil => rfl
  | cons group rest ih =>
    rw [List.nodup_cons] at distinct
    rw [walkGroups, Walked.problems_bind, Walked.problems_atKey, ih distinct.2,
      List.flatMap_cons, Walked.value_atKey]
    refine congrArg₂ _ rfl
      (List.flatMap_congr fun other present => Members.gather_rewrite fun value => ?_)
    have different : other ≠ group := fun same => distinct.1 (same ▸ present)
    rw [if_neg different]

/-- Where no key belongs to two of them, the problems in a message are those that each of its fields
and groups meets in the members. -/
theorem problems_walkMembers (apart : message.KeysApart) (members : List (String × Tree)) :
    (walker.walkMembers enter message members).problems =
      message.plainFields.flatMap (walker.fieldProblems enter message members) ++
        message.groups.flatMap (walker.groupProblems enter message members) := by
  have settles : ∀ key, message.isKnownKey key = true → ∀ value,
      walker.settled message key value = some value := by
    intro key known value
    rw [settled, if_pos known]
  rw [walkMembers, Walked.problems_bind, problems_walkPlainFields walker enter message apart.plain,
    problems_walkGroups walker enter message message.groups_nodup, value_walkPlainFields,
    settleUnknown_eq]
  congr 1
  · refine List.flatMap_congr fun field member => Members.gather_rewrite ?_
    exact settles field.name (Message.isKnownKey_iff.mpr (.inl ⟨field, member, rfl⟩))
  · refine List.flatMap_congr fun group listed => ?_
    have foreign : ∀ field ∈ message.plainFields, field.name ≠ group :=
      fun field member same => apart.groups field member (same ▸ listed)
    rw [groupProblems, groupProblems, Members.gather_rewrite fun value => by
        rw [plainFate_of_ne walker enter message value foreign],
      Members.gather_rewrite (settles group (Message.isKnownKey_iff.mpr (.inr listed)))]

end Walker

end Redaction

import Redaction.Proofs.Walk.Depth
import Redaction.Proofs.Walk.Pointwise

/-!
# Keys that belong to one declaration

In any message type, well named or not, the value of a key is touched only by the plain fields and
the group to which the key belongs. Where this is a single field, or a group alone, the value is
walked once, as it was before the walk, and what the walk of it reports is reported.
-/

namespace Redaction

open Schema Redaction.Tree

/-- The plain fields to which a key belongs, in the order of their declaration. -/
def Schema.Message.claimants (message : Message) (key : String) : List Field :=
  message.plainFields.filter fun field => field.name == key

namespace Schema.Message

variable {message : Message} {key : String} {field : Field}

/-- A key belongs to the plain fields of its name. -/
theorem mem_claimants_iff :
    field ∈ message.claimants key ↔ field ∈ message.plainFields ∧ field.name = key := by
  rw [claimants, List.mem_filter, beq_iff_eq]

/-- The only field of a key is a plain field of this name. -/
theorem mem_plainFields_of_sole (sole : message.claimants key = [field]) :
    field ∈ message.plainFields ∧ field.name = key :=
  mem_claimants_iff.mp (sole ▸ List.mem_singleton.mpr rfl)

/-- A key that belongs to a plain field is known. -/
theorem isKnownKey_of_claimants (claimed : field ∈ message.claimants key) :
    message.isKnownKey key = true :=
  isKnownKey_iff.mpr (.inl ⟨field, mem_claimants_iff.mp claimed⟩)

/-- Where no two plain fields share a name, each is the only one of its name. -/
theorem KeysApart.claimants_of_mem (apart : message.KeysApart)
    (declared : field ∈ message.plainFields) : message.claimants field.name = [field] := by
  have distinct : message.plainFields.Nodup := List.Nodup.of_map _ apart.plain
  have sole : ∀ other, other ∈ message.claimants field.name ↔ other = field := by
    intro other
    rw [mem_claimants_iff]
    constructor
    · rintro ⟨present, same⟩
      exact List.inj_on_of_nodup_map apart.plain present declared same
    · rintro rfl
      exact ⟨declared, rfl⟩
  exact List.perm_singleton.mp ((List.perm_ext_iff_of_nodup (distinct.filter _)
    (List.nodup_singleton field)).mpr fun other => by rw [List.mem_singleton]; exact sole other)

/-- Where no plain field has the name of a group, groups claim their keys alone. -/
theorem KeysApart.claimants_of_group (apart : message.KeysApart) {group : String}
    (listed : group ∈ message.groups) : message.claimants group = [] :=
  List.filter_eq_nil_iff.mpr fun other present same =>
    apart.groups other present (beq_iff_eq.mp same ▸ listed)

/-- The group of an alternative is listed. -/
theorem mem_groups_of_alternative? {group active : String}
    (declared : message.alternative? group active = some field) : group ∈ message.groups := by
  obtain ⟨listed, belongs⟩ := List.mem_filter.mp (List.mem_of_find?_eq_some declared)
  exact message.group_listed field listed group (beq_iff_eq.mp belongs)

end Schema.Message

namespace Walker

variable {walker : Walker} {enter : Enter} {message : Message} {key group : String} {field : Field}

/-- Only the fields of a key touch its value. -/
theorem plainFate_eq_filter (fields : List Field) (key : String) (value : Tree) :
    walker.plainFate enter message fields key value =
      walker.plainFate enter message (fields.filter fun field => field.name == key) key value := by
  induction fields generalizing value with
  | nil => rfl
  | cons field rest ih =>
    rw [plainFate, List.filter_cons]
    by_cases here : field.name = key
    · rw [if_pos here.symm, if_pos (beq_iff_eq.mpr here), plainFate, if_pos here.symm, ih]
    · rw [if_neg (Ne.symm here), if_neg fun same => here (beq_iff_eq.mp same), ih]

/-- Of the plain fields only those to which a key belongs touch its value. -/
theorem plainFate_eq_claimants (key : String) (value : Tree) :
    walker.plainFate enter message message.plainFields key value =
      walker.plainFate enter message (message.claimants key) key value :=
  plainFate_eq_filter message.plainFields key value

/-- The value of a key that belongs to a single field is walked as the value of this field. -/
theorem fate_of_sole (sole : message.claimants key = [field]) (apart : key ∉ message.groups)
    (value : Tree) :
    walker.fate enter message key value =
      some (walker.walkField enter message field value).value := by
  obtain ⟨_, named⟩ := Message.mem_plainFields_of_sole sole
  have known := Message.isKnownKey_of_claimants (sole ▸ List.mem_singleton.mpr rfl)
  rw [fate, settled, if_pos known, Option.bind_some, plainFate_eq_claimants, sole, plainFate,
    plainFate, if_pos named.symm, groupFate_of_not_mem walker enter message _ apart]

/-- The value of a key that belongs to a group alone is walked as the value of the group. -/
theorem fate_of_group (listed : group ∈ message.groups) (apart : message.claimants group = [])
    (value : Tree) :
    walker.fate enter message group value = (walker.walkGroup enter message group value).value := by
  have known : message.isKnownKey group = true := Message.isKnownKey_iff.mpr (.inr listed)
  rw [fate, settled, if_pos known, Option.bind_some, plainFate_eq_claimants, apart, plainFate,
    groupFate_of_mem walker enter message message.groups_nodup listed]

section Problems

variable {value : Tree} {members : List (String × Tree)}

/-- A pass over one key leaves the values of the others. -/
theorem mem_atKey_of_ne {other : String} {step : Tree → Walked (Option Tree)}
    (different : key ≠ other) (present : (key, value) ∈ members) :
    (key, value) ∈ (Walked.atKey other step members).value := by
  rw [Walked.value_atKey]
  exact Members.mem_rewrite.mpr ⟨value, present, if_neg different⟩

/-- Of the plain fields, the only one of a key reports what it meets in the value. -/
theorem sublist_problems_walkPlainFields {fields : List Field}
    (sole : (fields.filter fun other => other.name == key) = [field])
    (present : (key, value) ∈ members) :
    (walker.walkField enter message field value).problems.Sublist
      (walker.walkPlainFields enter message fields members).problems := by
  induction fields generalizing members with
  | nil => cases sole
  | cons first rest ih =>
    rw [List.filter_cons] at sole
    rw [walkPlainFields, Walked.problems_bind]
    by_cases here : first.name = key
    · rw [if_pos (beq_iff_eq.mpr here)] at sole
      obtain rfl := (List.cons.inj sole).1
      have part := Members.sublist_gather (here ▸ present) fun value =>
        (some <$> walker.walkField enter message first value).problems
      rw [Walked.problems_map] at part
      rw [Walked.problems_atKey]
      exact part.trans (List.sublist_append_left _ _)
    · rw [if_neg fun same => here (beq_iff_eq.mp same)] at sole
      exact (ih sole (mem_atKey_of_ne (Ne.symm here) present)).trans
        (List.sublist_append_right _ _)

/-- A group reports what it meets in its value. -/
theorem sublist_problems_walkGroups {groups : List String} (listed : group ∈ groups)
    (present : (group, value) ∈ members) :
    (walker.walkGroup enter message group value).problems.Sublist
      (walker.walkGroups enter message groups members).problems := by
  induction groups generalizing members with
  | nil => cases listed
  | cons first rest ih =>
    rw [walkGroups, Walked.problems_bind]
    by_cases here : group = first
    · subst here
      have part := Members.sublist_gather present fun value =>
        (walker.walkGroup enter message group value).problems
      rw [Walked.problems_atKey]
      exact part.trans (List.sublist_append_left _ _)
    · exact (ih ((List.mem_cons.mp listed).resolve_left here) (mem_atKey_of_ne here present)).trans
        (List.sublist_append_right _ _)

/-- A known key keeps its value until the fields are walked. -/
theorem mem_settleUnknown (known : message.isKnownKey key = true)
    (present : (key, value) ∈ members) : (key, value) ∈ walker.settleUnknown message members := by
  rw [settleUnknown_eq]
  exact Members.mem_rewrite.mpr ⟨value, present, if_pos known⟩

/-- What the walk of the value of a key that belongs to a single field reports is reported. -/
theorem sublist_problems_of_sole (sole : message.claimants key = [field])
    (present : (key, value) ∈ members) :
    (walker.walkField enter message field value).problems.Sublist
      (walker.walkMembers enter message members).problems := by
  have known := Message.isKnownKey_of_claimants (sole ▸ List.mem_singleton.mpr rfl)
  rw [walkMembers, Walked.problems_bind]
  exact (sublist_problems_walkPlainFields sole (mem_settleUnknown known present)).trans
    (List.sublist_append_left _ _)

/-- What the walk of the value of a group alone reports is reported. -/
theorem sublist_problems_of_group (listed : group ∈ message.groups)
    (apart : message.claimants group = []) (present : (group, value) ∈ members) :
    (walker.walkGroup enter message group value).problems.Sublist
      (walker.walkMembers enter message members).problems := by
  have known : message.isKnownKey group = true := Message.isKnownKey_iff.mpr (.inr listed)
  have still : (group, value) ∈ (walker.walkPlainFields enter message message.plainFields
      (walker.settleUnknown message members)).value := by
    rw [value_walkPlainFields]
    refine Members.mem_rewrite.mpr ⟨value, mem_settleUnknown known present, ?_⟩
    rw [plainFate_eq_claimants, apart, plainFate]
  rw [walkMembers, Walked.problems_bind]
  exact (sublist_problems_walkGroups listed still).trans (List.sublist_append_right _ _)

end Problems

end Walker

end Redaction

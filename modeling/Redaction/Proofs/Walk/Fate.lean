import Redaction.Proofs.Rewriting
import Redaction.Walk.Walker

/-!
# What becomes of a member of a message

A walk changes the members of a message in several passes. Each pass is a rewriting, so the passes
together are one: what becomes of a member depends on its key and its value alone. This holds for
every message type, also where several fields share a name.
-/

namespace Redaction

open Schema

namespace Walked

variable {step other : Tree → Walked (Option Tree)} {key : String}

/-- Walking the value of one key rewrites the members. -/
theorem value_atKey (key : String) (step : Tree → Walked (Option Tree))
    (members : List (String × Tree)) :
    (atKey key step members).value =
      Members.rewrite (fun other value => if other = key then (step value).value else some value)
        members := by
  induction members with
  | nil => rfl
  | cons member rest ih =>
    obtain ⟨name, value⟩ := member
    rw [atKey, Members.rewrite_cons]
    by_cases same : name = key
    · rw [if_pos same, if_pos same, value_bind, value_bind, value_pure, ih]
      cases (step value).value <;> rfl
    · rw [if_neg same, if_neg same, value_bind, value_pure, ih]

/-- Only the values of the key contribute problems. -/
theorem problems_atKey (key : String) (step : Tree → Walked (Option Tree))
    (members : List (String × Tree)) :
    (atKey key step members).problems =
      Members.gather key (fun value => (step value).problems) members := by
  induction members with
  | nil => rfl
  | cons member rest ih =>
    obtain ⟨name, value⟩ := member
    rw [atKey, Members.gather_cons]
    by_cases same : name = key
    · rw [if_pos same, if_pos same, problems_bind, problems_bind, problems_pure, ih,
        List.append_nil]
    · rw [if_neg same, if_neg same, problems_bind, problems_pure, ih, List.append_nil,
        List.nil_append]

/-- Only what is done to the values of the key matters. -/
theorem atKey_congr {members : List (String × Tree)}
    (same : ∀ value, (key, value) ∈ members → step value = other value) :
    atKey key step members = atKey key other members := by
  induction members with
  | nil => rfl
  | cons member rest ih =>
    obtain ⟨name, value⟩ := member
    have later := ih fun value present => same value (List.mem_cons_of_mem _ present)
    rw [atKey, atKey, later]
    by_cases here : name = key
    · subst here
      rw [same value List.mem_cons_self]
    · rw [if_neg here, if_neg here]

/-- Only what follows on the result of the first step matters. -/
theorem bind_congr {α β : Type} {first : Walked α} {next other : α → Walked β}
    (same : next first.value = other first.value) : first >>= next = first >>= other := by
  change Walked.mk _ _ = Walked.mk _ _
  rw [same]

/-- Only what is done to the items that are there matters. -/
theorem items_congr {step other : Tree → Walked Tree} {list : List Tree}
    (same : ∀ item ∈ list, step item = other item) : items step list = items other list := by
  induction list with
  | nil => rfl
  | cons item rest ih =>
    rw [items, items, same item List.mem_cons_self,
      ih fun item later => same item (List.mem_cons_of_mem _ later)]

/-- Only what is done to the values that are there matters. -/
theorem members_congr {step other : Tree → Walked Tree} {list : List (String × Tree)}
    (same : ∀ member ∈ list, step member.2 = other member.2) :
    members step list = members other list := by
  induction list with
  | nil => rfl
  | cons member rest ih =>
    obtain ⟨key, value⟩ := member
    rw [members, members, same (key, value) List.mem_cons_self,
      ih fun member later => same member (List.mem_cons_of_mem _ later)]

end Walked

/-- What is known about the value of a field before the value is looked at. -/
inductive Outlook where
  /-- The value is secret. -/
  | secret
  /-- The value holds no messages. -/
  | scalar
  /-- The value holds messages of a type that is missing. -/
  | missing (typeName : String)
  /-- The value holds messages of a type. -/
  | message (nested : Message)

/-- What a policy and the types of a registry tell about the value of a field. -/
def Schema.Registry.outlook (registry : Registry) (policy : Policy) (field : Field) : Outlook :=
  if policy.isSensitive field then .secret
  else
    match field.typeName? with
    | none => .scalar
    | some typeName =>
      match registry.get? typeName with
      | none => .missing typeName
      | some nested => .message nested

/-- A known key names a plain field or a group. -/
theorem Schema.Message.isKnownKey_iff {message : Message} {key : String} :
    message.isKnownKey key = true ↔
      (∃ field ∈ message.plainFields, field.name = key) ∨ key ∈ message.groups := by
  simp [Message.isKnownKey]

namespace Schema.Registry

variable {registry : Registry} {policy : Policy} {field : Field}

/-- The fields with a secret value are those that the policy calls secret. -/
theorem outlook_eq_secret_iff :
    registry.outlook policy field = .secret ↔ policy.isSensitive field = true := by
  unfold outlook
  split
  · next secret => simp only [secret]
  · next visible =>
    split
    · simp [visible]
    · split <;> simp [visible]

/-- A field without messages is not secret and refers to no type. -/
theorem outlook_eq_scalar_iff :
    registry.outlook policy field = .scalar ↔
      policy.isSensitive field = false ∧ field.typeName? = none := by
  unfold outlook
  split
  · next secret => simp [secret]
  · next visible =>
    split
    · next plain => simp [visible, plain]
    · next reference =>
      split <;> simp [reference]

/-- A field with messages of a missing type is not secret. -/
theorem outlook_eq_missing_iff {typeName : String} :
    registry.outlook policy field = .missing typeName ↔
      policy.isSensitive field = false ∧ field.typeName? = some typeName ∧
        registry.get? typeName = none := by
  unfold outlook
  split
  · next secret => simp [secret]
  · next visible =>
    split
    · next plain => simp [plain]
    · next name reference =>
      split
      · next lost =>
        simp only [Outlook.missing.injEq, visible, reference, Option.some.injEq, true_and]
        constructor
        · rintro rfl
          exact ⟨rfl, lost⟩
        · exact fun known => known.1
      · next nested found =>
        simp only [reduceCtorEq, visible, reference, Option.some.injEq, true_and, false_iff]
        rintro ⟨rfl, lost⟩
        rw [lost] at found
        cases found

/-- A field with messages of a known type is not secret. -/
theorem outlook_eq_message_iff {nested : Message} :
    registry.outlook policy field = .message nested ↔
      policy.isSensitive field = false ∧ registry.nested? field = some nested := by
  unfold outlook nested?
  split
  · next secret => simp [secret]
  · next visible =>
    split
    · next plain => simp [plain]
    · next name reference =>
      split
      · next lost => simp [visible, reference, lost]
      · next found => simp [visible, reference, found]

end Schema.Registry

namespace Walker

variable (walker : Walker) (enter : Enter) (message : Message)

/-- The value of a field is walked as its outlook says. -/
theorem walkField_eq (field : Field) (value : Tree) :
    walker.walkField enter message field value =
      match walker.registry.outlook walker.policy field with
      | .secret => pure .stripped
      | .scalar => pure value
      | .missing typeName => walker.fallBack (.unknownType typeName) value
      | .message nested =>
        if walker.skips nested then pure value
        else walker.walkNested enter message field nested value := by
  unfold walkField Registry.outlook
  by_cases secret : walker.policy.isSensitive field = true
  · rw [if_pos secret, if_pos secret]
  · rw [if_neg secret, if_neg secret]
    cases field.typeName? with
    | none => rfl
    | some typeName => cases h : walker.registry.get? typeName <;> simp only [h]

/-- What becomes of a value whose key may be unknown. -/
def settled (key : String) (value : Tree) : Option Tree :=
  if message.isKnownKey key then some value
  else
    match walker.unknownFields with
    | .keep => some value
    | .strip => some .stripped
    | .drop => none

/-- What plain fields make of the value of a key, one after the other. -/
def plainFate : List Field → String → Tree → Tree
  | [], _, value => value
  | field :: rest, key, value =>
    plainFate rest key
      (if key = field.name then (walker.walkField enter message field value).value else value)

/-- What groups make of the value of a key, one after the other. -/
def groupFate : List String → String → Tree → Option Tree
  | [], _, value => some value
  | group :: rest, key, value =>
    (if key = group then (walker.walkGroup enter message group value).value
      else some value).bind (groupFate rest key)

/-- What becomes of the value of a key in a message. -/
def fate (key : String) (value : Tree) : Option Tree :=
  (walker.settled message key value).bind fun value =>
    walker.groupFate enter message message.groups key
      (walker.plainFate enter message message.plainFields key value)

/-- Dealing with unknown keys is a rewriting. -/
theorem settleUnknown_eq (members : List (String × Tree)) :
    walker.settleUnknown message members = Members.rewrite (walker.settled message) members := by
  cases mode : walker.unknownFields with
  | keep =>
    simp only [settleUnknown, mode]
    refine (Members.rewrite_eq_self fun key value _ => ?_).symm
    simp only [settled, mode, ite_self]
  | strip =>
    simp only [settleUnknown, mode]
    induction members with
    | nil => rfl
    | cons member rest ih =>
      obtain ⟨key, value⟩ := member
      rw [Members.rewrite_cons, List.map_cons, ih]
      cases known : message.isKnownKey key <;> simp [settled, mode, known]
  | drop =>
    simp only [settleUnknown, mode]
    induction members with
    | nil => rfl
    | cons member rest ih =>
      obtain ⟨key, value⟩ := member
      rw [Members.rewrite_cons, List.filter_cons, ih]
      cases known : message.isKnownKey key <;> simp [settled, mode, known]

/-- Walking plain fields is a rewriting. -/
theorem value_walkPlainFields (fields : List Field) (members : List (String × Tree)) :
    (walker.walkPlainFields enter message fields members).value =
      Members.rewrite (fun key value => some (walker.plainFate enter message fields key value))
        members := by
  induction fields generalizing members with
  | nil => exact (Members.rewrite_eq_self fun _ _ _ => rfl).symm
  | cons field rest ih =>
    rw [walkPlainFields, Walked.value_bind, ih, Walked.value_atKey, Members.rewrite_rewrite]
    refine Members.rewrite_congr fun key value _ => ?_
    by_cases here : key = field.name <;> simp [here, plainFate]

/-- Walking groups is a rewriting. -/
theorem value_walkGroups (groups : List String) (members : List (String × Tree)) :
    (walker.walkGroups enter message groups members).value =
      Members.rewrite (walker.groupFate enter message groups) members := by
  induction groups generalizing members with
  | nil => exact (Members.rewrite_eq_self fun _ _ _ => rfl).symm
  | cons group rest ih =>
    rw [walkGroups, Walked.value_bind, ih, Walked.value_atKey, Members.rewrite_rewrite]
    rfl

/-- Walking the members of a message is a rewriting. -/
theorem value_walkMembers (members : List (String × Tree)) :
    (walker.walkMembers enter message members).value =
      Members.rewrite (walker.fate enter message) members := by
  rw [walkMembers, Walked.value_bind, value_walkGroups, value_walkPlainFields, settleUnknown_eq,
    Members.rewrite_rewrite, Members.rewrite_rewrite]
  rfl

end Walker

end Redaction

import Redaction.Proofs.Schema.Place
import Redaction.Proofs.Schema.Reachable
import Redaction.Proofs.Tree.Inside

/-!
# Trees that conform to a type

A tree conforms to a type if the schema describes everything in it, down to secret values and values
without messages, which may be anything. To censor a tree is to take out the values at its secret
places and to change nothing else. At places of harmless types there is nothing to censor.
-/

namespace Redaction.Schema.Registry

/-- Whether the schema describes what is at a place. A message may be unset. -/
inductive Conforms (registry : Registry) (policy : Policy) : Place → Tree → Prop where
  /-- A secret value may be anything. -/
  | secret (tree : Tree) : Conforms registry policy .secret tree
  /-- A value without messages may be anything. -/
  | free (tree : Tree) : Conforms registry policy .free tree
  /-- A message that is unset. -/
  | unset (type : Message) : Conforms registry policy (.message type) .null
  /-- An object that the place needs, whose keys are declared and have conforming values. -/
  | object {place : Place} {members : List (String × Tree)}
      (needed : place.accepts (.object members) = true)
      (each : ∀ member ∈ members,
        Conforms registry policy (registry.under policy place member.1) member.2) :
      Conforms registry policy place (.object members)
  /-- A list of conforming messages. -/
  | list {type : Message} {items : List Tree}
      (each : ∀ item ∈ items, Conforms registry policy (.message type) item) :
      Conforms registry policy (.list type) (.list items)

mutual

/-- The tree at a place with all secret values in it taken out, and nothing else. -/
def censor (registry : Registry) (policy : Policy) : Place → Tree → Tree
  | .secret, _ => .stripped
  | place, .list items => .list (censorItems registry policy place.item items)
  | place, .object members => .object (censorMembers registry policy place members)
  | _, leaf => leaf

/-- The items of a list, all at the same place, with all secret values in them taken out. -/
def censorItems (registry : Registry) (policy : Policy) : Place → List Tree → List Tree
  | _, [] => []
  | place, item :: rest =>
    censor registry policy place item :: censorItems registry policy place rest

/-- The members of the object at a place with all secret values in them taken out. -/
def censorMembers (registry : Registry) (policy : Policy) :
    Place → List (String × Tree) → List (String × Tree)
  | _, [] => []
  | place, (key, value) :: rest =>
    (key, censor registry policy (registry.under policy place key) value) ::
      censorMembers registry policy place rest

end

variable {registry : Registry} {policy : Policy} {place : Place}

/-- Nothing conforms to what is not declared. -/
theorem not_conforms_unknown {tree : Tree} : ¬ registry.Conforms policy .unknown tree := by
  intro conforms
  cases conforms with
  | object needed => cases needed

/-- Nothing conforms to a missing type. -/
theorem not_conforms_missing {typeName : String} {tree : Tree} :
    ¬ registry.Conforms policy (.missing typeName) tree := by
  intro conforms
  cases conforms with
  | object needed => cases needed

/-- A secret value is taken out whole. -/
@[simp] theorem censor_secret (tree : Tree) : registry.censor policy .secret tree = .stripped := by
  cases tree <;> rfl

/-- Items are censored one by one. -/
theorem censorItems_eq_map (items : List Tree) :
    registry.censorItems policy place items = items.map (registry.censor policy place) := by
  induction items with
  | nil => rfl
  | cons item rest ih => rw [censorItems, ih, List.map_cons]

/-- Members are censored one by one, each value at the place of its key. -/
theorem censorMembers_eq_rewrite (members : List (String × Tree)) :
    registry.censorMembers policy place members = Members.rewrite
      (fun key value => some (registry.censor policy (registry.under policy place key) value))
      members := by
  induction members with
  | nil => rfl
  | cons member rest ih =>
    obtain ⟨key, value⟩ := member
    rw [censorMembers, ih, Members.rewrite_cons]

/-- At a place that is not secret, what lies inside is censored. -/
theorem censor_of_ne_secret (visible : place ≠ .secret) (tree : Tree) :
    registry.censor policy place tree = tree.inside (registry.censor policy place.item)
      fun key value => some (registry.censor policy (registry.under policy place key) value) := by
  cases tree with
  | list items => rw [censor, censorItems_eq_map, Tree.inside]; exact visible
  | object members => rw [censor, censorMembers_eq_rewrite, Tree.inside]; exact visible
  | _ =>
    cases place with
    | secret => exact absurd rfl visible
    | _ => rfl

/-- In a list of messages each message is censored. -/
theorem censor_list (type : Message) (items : List Tree) :
    registry.censor policy (.list type) (.list items) =
      .list (items.map (registry.censor policy (.message type))) := by
  rw [← censorItems_eq_map]
  rfl

/-- In a map with messages as its values each message is censored. -/
theorem censor_map (type : Message) (members : List (String × Tree)) :
    registry.censor policy (.map type) (.object members) =
      .object (Members.mapValues (registry.censor policy (.message type)) members) := by
  rw [Members.mapValues_eq_rewrite]
  exact censor_of_ne_secret (by simp) _

/-- Whether a place is not secret and leads to harmless types only. -/
def HarmlessAt (registry : Registry) (policy : Policy) : Place → Prop
  | .secret => False
  | .free | .missing _ | .unknown => True
  | .message type | .list type | .map type | .group type _ =>
    type ∈ registry.messages ∧ registry.Harmless policy type.name

/-- Any number of messages of a harmless type is harmless. -/
theorem harmlessAt_ofMessages {type : Message} (cardinality : Cardinality)
    (member : type ∈ registry.messages) (harmless : registry.Harmless policy type.name) :
    registry.HarmlessAt policy (.ofMessages type cardinality) := by
  cases cardinality <;> exact ⟨member, harmless⟩

/-- A secret is not harmless. -/
theorem HarmlessAt.ne_secret (harmless : registry.HarmlessAt policy place) : place ≠ .secret := by
  rintro rfl
  exact harmless

section Harmless

variable (undotted : registry.Undotted)

include undotted

/-- The values of the fields of a harmless type are at harmless places. -/
theorem harmlessAt_placeOf {type : Message} (member : type ∈ registry.messages)
    (harmless : registry.Harmless policy type.name) {field : Field}
    (declared : field ∈ type.fields) :
    registry.HarmlessAt policy (registry.placeOf policy field) := by
  unfold placeOf
  cases h : registry.outlook policy field with
  | secret =>
    have secret := outlook_eq_secret_iff.mp h
    rw [harmless.visible member field declared] at secret
    cases secret
  | scalar => trivial
  | missing typeName => trivial
  | message nested =>
    obtain ⟨_, resolved⟩ := outlook_eq_message_iff.mp h
    obtain ⟨typeName, refers, _⟩ := Option.bind_eq_some_iff.mp resolved
    obtain ⟨other, same, safe⟩ := harmless.nested undotted member declared refers
    obtain rfl := Option.some.inj (resolved.symm.trans same)
    exact harmlessAt_ofMessages field.cardinality (mem_of_nested?_eq_some resolved) safe

/-- Below a harmless place all places are harmless. -/
theorem harmlessAt_under (harmless : registry.HarmlessAt policy place) (key : String) :
    registry.HarmlessAt policy (registry.under policy place key) := by
  unfold under
  split
  · obtain ⟨member, safe⟩ := harmless
    split
    · next field found =>
      exact harmlessAt_placeOf undotted member safe
        (List.mem_of_mem_filter (List.mem_of_find?_eq_some found))
    · split
      · exact ⟨member, safe⟩
      · trivial
  · exact harmless
  · obtain ⟨member, safe⟩ := harmless
    split
    · next field found =>
      exact harmlessAt_placeOf undotted member safe
        (List.mem_of_mem_filter (List.mem_of_find?_eq_some found))
    · trivial
  · trivial

omit undotted in
/-- The items of a list at a harmless place are harmless. -/
theorem harmlessAt_item (harmless : registry.HarmlessAt policy place) :
    registry.HarmlessAt policy place.item := by
  cases place with
  | list type => exact harmless
  | _ => trivial

/-- At a harmless place there is nothing to censor. -/
theorem censor_eq_self (tree : Tree) (harmless : registry.HarmlessAt policy place) :
    registry.censor policy place tree = tree := by
  induction tree using Tree.inductionHeld generalizing place with
  | step tree ih =>
    rw [censor_of_ne_secret harmless.ne_secret]
    exact Tree.inside_eq_self (fun part held => ih part held (harmlessAt_item harmless))
      fun key part held => congrArg some (ih part held (harmlessAt_under undotted harmless key))

end Harmless

end Redaction.Schema.Registry

import Redaction.Proofs.Schema.Naming
import Redaction.Proofs.Walk.Declared
import Redaction.Proofs.Walk.Misfit

/-!
# Groups with secret alternatives only

The value of a group all of whose alternatives are secret is not taken out as a whole. The value of
the alternative in use is, if there is one in use and the group declares it. Otherwise the value
escapes where the configuration lets pass what the schema does not describe.
-/

namespace Redaction

open Schema Redaction.Tree

namespace Walker

/-- Whether the value of a group is left as it is, whatever alternatives are secret: a malformed
value where fallbacks let pass, or an alternative that is not declared where unknown data is
kept. -/
def Escapes (walker : Walker) (message : Message) (group : String) (value : Tree) : Prop :=
  (value.groupFlaw?.isSome = true ∧ walker.fallback = .passthrough) ∨
    walker.unknownFields = .keep ∧
      ∃ active inner, value = .object [(active, inner)] ∧
        message.alternative? group active = none

variable {walker : Walker} {enter : Enter} {message : Message} {group : String} {value : Tree}
  {path : List Step} {leaf : Tree}

/-- Nothing shows in an object whose only value has been taken out. -/
theorem not_shows_taken_out (key : String) :
    ¬ (Tree.object [(key, .stripped)]).Shows path leaf := by
  rw [shows_object_iff]
  rintro ⟨other, taken, rest, _, present, shows⟩
  obtain ⟨_, rfl⟩ := Prod.mk.inj (List.mem_singleton.mp present)
  exact not_shows_stripped shows

/-- What shows of a malformed group is what fallbacks let pass. -/
theorem shows_walkGroup_of_groupFlaw? {flaw : GroupFlaw} (wrong : value.groupFlaw? = some flaw) :
    (∃ kept, (walker.walkGroup enter message group value).value = some kept ∧
      kept.Shows path leaf) ↔ value.Shows path leaf ∧ walker.Escapes message group value := by
  have malformed : value.groupFlaw?.isSome = true := by rw [wrong]; rfl
  have several : ∀ active inner, value ≠ .object [(active, inner)] := by
    rintro active inner rfl
    cases wrong
  rw [walkGroup_of_groupFlaw? wrong, Walked.value_map, fallBack, Escapes]
  cases walker.fallback with
  | strip => simp [not_shows_stripped, several]
  | passthrough => simp [malformed]

/-- What shows of a group with secret alternatives only is what escapes. -/
theorem shows_walkGroup_iff (hidden : ∀ alternative ∈ message.alternatives group,
      walker.policy.isSensitive alternative = true) :
    (∃ kept, (walker.walkGroup enter message group value).value = some kept ∧
      kept.Shows path leaf) ↔ value.Shows path leaf ∧ walker.Escapes message group value := by
  match value with
  | .bool _ | .number _ | .string _ | .list _ | .object [] | .object (_ :: _ :: _) =>
    exact shows_walkGroup_of_groupFlaw? rfl
  | .null => simp [walkGroup, not_shows_null]
  | .stripped => simp [walkGroup, not_shows_stripped]
  | .object [(active, inner)] =>
    cases declared : message.alternative? group active with
    | some field =>
      have secret := hidden field (List.mem_of_find?_eq_some declared)
      have taken : walker.walkField enter message field inner = pure .stripped := if_pos secret
      have kept : ¬ walker.Escapes message group (.object [(active, inner)]) := by
        rintro (⟨malformed, _⟩ | ⟨_, _, _, same, unknown⟩)
        · cases malformed
        · obtain ⟨rfl, rfl⟩ := Prod.mk.inj (List.singleton_injective (Tree.object.inj same))
          rw [declared] at unknown
          cases unknown
      rw [walkGroup_of_alternative?_eq_some _ _ _ declared, taken]
      simp [not_shows_taken_out, kept]
    | none =>
      rw [walkGroup_of_alternative?_eq_none _ _ _ declared, Escapes]
      cases walker.unknownFields with
      | keep => simp [declared]
      | strip => simp [not_shows_taken_out, groupFlaw?]
      | drop => simp [groupFlaw?]

section Root

variable {registry : Registry} {config : Config} {additional : AdditionalNames}
  {reference : String} {type : Message} {members : List (String × Tree)} {key : String}

/-- Messages of a type with a secret field are entered. -/
theorem skips_eq_false_of_secret (config : Config) (additional : AdditionalNames)
    (member : type ∈ registry.messages)
    (plain : ¬ Registry.Dotted type.name)
    (searched : config.unknownFields = .keep → ∃ field ∈ type.fields,
      (⟨config.secretSuffix, additional⟩ : Policy).isSensitive field = true) :
    (ofConfig registry config additional).skips type = false := by
  refine eq_false_of_ne_true fun skipped => ?_
  obtain ⟨keeps, harmless⟩ :=
    (Registry.skips_ofConfig_iff config additional member plain).mp skipped
  obtain ⟨field, declared, secret⟩ := searched keeps
  rw [harmless.visible member field declared] at secret
  cases secret

/-- What shows below a key of a message that is entered shows in what becomes of a value of the
key. -/
theorem shows_redactTree_iff (known : registry.get? reference = some type)
    (entered : (ofConfig registry config additional).skips type = false) :
    (config.redactTree registry additional reference (.object members)).result.Shows
        (.key key :: path) leaf ↔
      ∃ value, (key, value) ∈ members ∧
        ∃ kept, (ofConfig registry config additional).fate
          (ofConfig registry config additional).enterMessage type key value = some kept ∧
          kept.Shows path leaf := by
  have resolved : (ofConfig registry config additional).registry.get? reference = some type := known
  change ((ofConfig registry config additional).walkRoot reference (.object members)).value.Shows
    (.key key :: path) leaf ↔ _
  rw [walkRoot, resolved]
  dsimp only
  rw [entered, if_neg Bool.false_ne_true, walkMessage_object, Walked.value_map, value_walkMembers,
    shows_rewrite_iff]
  constructor
  · rintro ⟨_, value, kept, _, same, present, becomes, shows⟩
    obtain ⟨first, rfl⟩ := List.cons.inj same
    obtain rfl := Step.key.inj first
    exact ⟨value, present, kept, becomes, shows⟩
  · rintro ⟨value, present, kept, becomes, shows⟩
    exact ⟨key, value, kept, path, rfl, present, becomes, shows⟩

end Root

end Walker

end Redaction

import Redaction.Proofs.Schema.Naming
import Redaction.Proofs.Walk.Reached
import Redaction.Sanitizer.Basic

/-!
# Parts inside messages that are left alone

The schema may lead to a part that the walk of a configuration does not reach, because a message
around it is left alone. Such a part stands in the result as it stood in the tree. If it is the
value of a field, walking it as such would have changed nothing either. So wherever the schema leads
to the value of a field, the result has there what the walk of the field yields, in every
configuration. Where unknown data is kept, a group whose only key is that of no alternative stays
too, whether the walk reaches it or not.
-/

namespace Redaction

open Schema Redaction.Tree

namespace Walker

variable {walker : Walker} {task next last : Task} {tree part value : Tree} {steps path : List Step}

/-- A part stands in the result as it stood in the tree. -/
def Spares (walker : Walker) (task : Task) (tree : Tree) (path : List Step) (value : Tree) : Prop :=
  ∃ whole, (walker.perform task tree).value = some whole ∧ whole.part? path = some value

/-- The part that a walk reaches stands at the end of its path. -/
theorem Reaches.part?_eq (reached : walker.Reaches task tree path last value) :
    tree.part? path = some value := by
  induction reached with
  | here task tree => rfl
  | step hands _ ih => rw [part?_append, hands.found, Option.bind_some, ih]

/-- If the messages of the next task are left alone, the part and all that is in it stays. -/
theorem Hands.spares (hands : walker.thorough.Hands task tree steps next part)
    (entered : walker.Enters task) (alone : ¬ walker.Enters next) (path : List Step)
    (inside : part.part? path = some value) : walker.Spares task tree (steps ++ path) value := by
  obtain ⟨passes, found, _, _, _⟩ := hands
  cases passes with
  | @root reference type known =>
    obtain rfl := Option.some.inj found
    have skips : walker.skips type = true := eq_true_of_ne_false alone
    refine ⟨tree, ?_, inside⟩
    have same : walker.registry.get? reference = some type := known
    rw [perform, walkRoot, same]
    dsimp only
    rw [if_pos skips]
    rfl
  | @messages parent type field expects =>
    obtain rfl := Option.some.inj found
    have skips : walker.skips type = true := eq_true_of_ne_false alone
    refine ⟨tree, ?_, inside⟩
    have same : walker.registry.outlook walker.policy field = .message type := expects
    rw [perform, walkField_eq, same]
    dsimp only
    rw [if_pos skips]
    rfl
  | single | item | entry => exact absurd entered alone
  | plain | group | alternative => exact absurd trivial alone

/-- A part to which the schema leads is reached, or it is spared. -/
theorem Reaches.or_spares (reached : walker.thorough.Reaches task tree path last value)
    (entered : walker.Enters task) :
    walker.Reaches task tree path last value ∨ walker.Spares task tree path value := by
  induction reached with
  | here task tree => exact .inl (.here task tree)
  | @step task next _ _ _ _ _ path hands later ih =>
    by_cases enters : walker.Enters next
    · have passed : walker.Hands _ _ _ _ _ :=
        ⟨hands.passes, hands.found, hands.alone, hands.chosen, enters⟩
      rcases ih enters with inside | ⟨inner, yields, found⟩
      · exact .inl (.step passed inside)
      · obtain ⟨whole, outer, here⟩ := passed.performed yields
        exact .inr ⟨whole, outer, by rw [part?_append, here, Option.bind_some, found]⟩
    · exact .inr (hands.spares entered enters path later.part?_eq)

/-- Where unknown data is kept, the value of a group stays as it is if its only key is that of no
alternative. -/
theorem Reaches.part?_of_unknown_alternative {registry : Registry} {config : Config}
    {additional : AdditionalNames} (keeps : config.unknownFields = .keep)
    {reference group active : String} {type : Message} {inner : Tree}
    (reached : (ofConfig registry config additional).thorough.Reaches (.root reference) tree path
      (.group type group) (.object [(active, inner)]))
    (unknown : type.alternative? group active = none) :
    (config.redactTree registry additional reference tree).result.part? path =
      some (.object [(active, inner)]) := by
  have stands : (ofConfig registry config additional).Spares (.root reference) tree path
      (.object [(active, inner)]) := by
    rcases reached.or_spares trivial with entered | spared
    · have kept : (ofConfig registry config additional).unknownFields = .keep := keeps
      refine entered.performed ?_
      rw [perform, walkGroup_of_alternative?_eq_none _ _ _ unknown, kept, Walked.value_pure]
    · exact spared
  obtain ⟨whole, yields, here⟩ := stands
  obtain rfl := Option.some.inj yields
  exact here

section Configured

variable {registry : Registry} {config : Config} {additional : AdditionalNames}
  (undotted : registry.Undotted)

include undotted

/-- Where unknown data is kept, walking the value of a harmless field changes nothing: the messages
in it are left alone. -/
theorem walkField_of_clears (keeps : config.unknownFields = .keep) {field : Field}
    (clears : registry.ClearsField ⟨config.secretSuffix, additional⟩ field) (enter : Enter)
    (parent : Message) (value : Tree) :
    (ofConfig registry config additional).walkField enter parent field value = pure value := by
  obtain ⟨visible, known⟩ := clears
  have shown : (ofConfig registry config additional).policy.isSensitive field = false := visible
  rw [walkField, shown, if_neg Bool.false_ne_true]
  cases refers : field.typeName? with
  | none => rfl
  | some typeName =>
    obtain ⟨nested, resolved, harmless⟩ := known typeName refers
    have member := Registry.mem_of_nested?_eq_some resolved
    have skips := (Registry.skips_ofConfig_iff config additional member
      (undotted.name nested member)).mpr ⟨keeps, harmless⟩
    rw [Registry.nested?, refers, Option.bind_some] at resolved
    have found : (ofConfig registry config additional).registry.get? typeName = some nested :=
      resolved
    dsimp only
    rw [found]
    dsimp only
    rw [if_pos skips]

/-- A part to which the schema leads is reached, unless unknown data is kept and nothing secret
comes after the part; then it is spared if it is not reached. -/
theorem Reaches.or_spares_of_clears {reference : String}
    (reached : (ofConfig registry config additional).thorough.Reaches (.root reference) tree path
      last value) :
    (ofConfig registry config additional).Reaches (.root reference) tree path last value ∨
      config.unknownFields = .keep ∧ registry.Clears ⟨config.secretSuffix, additional⟩ last ∧
        (ofConfig registry config additional).Spares (.root reference) tree path value := by
  by_cases keeps : config.unknownFields = .keep
  · by_cases clears : registry.Clears ⟨config.secretSuffix, additional⟩ last
    · exact (reached.or_spares trivial).imp_right fun spares => ⟨keeps, clears, spares⟩
    · exact .inl (reached.of_thorough_ofConfig (.inr ⟨undotted, clears⟩))
  · exact .inl (reached.of_thorough_ofConfig (.inl keeps))

/-- In every configuration, where the schema leads to a group with its only alternative, the result
has the alternative with what the walk of its value yields. -/
theorem Reaches.part?_of_alternative {reference group active : String} {type : Message}
    {own : Field} {inner : Tree}
    (reached : (ofConfig registry config additional).thorough.Reaches (.root reference) tree path
      (.group type group) (.object [(active, inner)]))
    (declared : type.alternative? group active = some own) :
    let walker := ofConfig registry config additional
    (config.redactTree registry additional reference tree).result.part? path =
      some (.object [(active, (walker.walkField walker.enterMessage type own inner).value)]) := by
  intro walker
  rcases reached.or_spares_of_clears undotted with entered | ⟨keeps, clears, whole, yields, here⟩
  · have done : (walker.perform (.group type group) (.object [(active, inner)])).value =
        some (.object [(active, (walker.walkField walker.enterMessage type own inner).value)]) := by
      rw [perform_group declared, Walked.value_map]
    obtain ⟨whole, yields, here⟩ := entered.performed done
    obtain rfl := Option.some.inj yields
    exact here
  · obtain rfl := Option.some.inj yields
    have harmless := clears own (List.mem_of_find?_eq_some declared)
    rw [walkField_of_clears undotted keeps harmless, Walked.value_pure]
    exact here

end Configured

end Walker

end Redaction

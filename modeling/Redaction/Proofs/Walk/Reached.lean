import Redaction.Proofs.Schema.Task
import Redaction.Proofs.Tree.Part
import Redaction.Proofs.Walk.Claimants
import Redaction.Proofs.Walk.Pruning

/-!
# The parts that a walk reaches

A walk reaches a part of a tree if it enters all messages around the part and if on the way each key
belongs to one declaration and each group has one alternative. What the walk of such a part yields
stands in the result at the same path, and what it reports is reported. A walk that leaves only
messages of harmless types alone reaches all parts after which something secret or a missing type
comes.
-/

namespace Redaction

open Schema Redaction.Tree

namespace Schema.Task

/-- Whether a task is the only one that a message has for the value of its key. -/
def Alone : Task → Task → Prop
  | .message type _, .field _ only => type.claimants only.name = [only] ∧ only.name ∉ type.groups
  | .message type _, .group _ name => type.claimants name = []
  | _, _ => True

/-- Whether a group, if the task is one, has at most one alternative. -/
def Chosen : Task → Tree → Prop
  | .group _ _, tree => tree.isCrowded = false
  | _, _ => True

end Schema.Task

namespace Walker

/-- The walk of a value as what it is walked as; none if the value is removed. -/
def perform (walker : Walker) : Task → Tree → Walked (Option Tree)
  | .root reference, tree => some <$> walker.walkRoot reference tree
  | .message type owner, tree => some <$> walker.walkMessage type owner tree
  | .field parent field, tree => some <$> walker.walkField walker.enterMessage parent field tree
  | .nested parent field type, tree =>
    some <$> walker.walkNested walker.enterMessage parent field type tree
  | .group parent group, tree => walker.walkGroup walker.enterMessage parent group tree

/-- Whether the messages that a task is about are not left alone. -/
def Enters (walker : Walker) : Task → Prop
  | .message type _ | .nested _ _ type => walker.skips type = false
  | _ => True

section Equations

variable {walker : Walker} {parent type : Message} {owner : Option Field} {field : Field}

/-- A tree is walked as a message of the type that the reference means. -/
theorem perform_root {reference : String} (known : walker.registry.get? reference = some type)
    (entered : walker.skips type = false) (tree : Tree) :
    walker.perform (.root reference) tree = walker.perform (.message type none) tree := by
  simp only [perform, walkRoot, known, entered, Bool.false_eq_true, if_false]

/-- The value of a field with messages is walked as these messages. -/
theorem perform_field (expects : walker.registry.outlook walker.policy field = .message type)
    (entered : walker.skips type = false) (value : Tree) :
    walker.perform (.field parent field) value =
      walker.perform (.nested parent field type) value := by
  simp only [perform, walkField_eq, expects, entered, Bool.false_eq_true, if_false]

/-- The only message of a field is walked as a message. -/
theorem perform_nested_singular (one : field.cardinality = .singular) (value : Tree) :
    walker.perform (.nested parent field type) value =
      walker.perform (.message type (some field)) value := by
  simp only [perform, walkNested, one]
  rfl

/-- What becomes of a list of messages. -/
theorem value_perform_list (several : field.cardinality = .repeated) (items : List Tree) :
    (walker.perform (.nested parent field type) (.list items)).value =
      some (.list (items.map fun item => (walker.walkMessage type (some field) item).value)) := by
  simp only [perform, walkNested, several, Walked.value_map, Walked.value_items]
  rfl

/-- The messages of a list report one after the other. -/
theorem problems_perform_list (several : field.cardinality = .repeated) (items : List Tree) :
    (walker.perform (.nested parent field type) (.list items)).problems =
      items.flatMap fun item => (walker.walkMessage type (some field) item).problems := by
  simp only [perform, walkNested, several, Walked.problems_map, Walked.problems_items]
  rfl

/-- What becomes of a map of messages. -/
theorem value_perform_map (keyed : field.cardinality = .map) (members : List (String × Tree)) :
    (walker.perform (.nested parent field type) (.object members)).value =
      some (.object (Members.rewrite
        (fun _ entry => some (walker.walkMessage type (some field) entry).value) members)) := by
  simp only [perform, walkNested, keyed, Walked.value_map, Walked.value_members,
    Members.mapValues_eq_rewrite]
  rfl

/-- The messages of a map report one after the other. -/
theorem problems_perform_map (keyed : field.cardinality = .map) (members : List (String × Tree)) :
    (walker.perform (.nested parent field type) (.object members)).problems =
      members.flatMap fun entry => (walker.walkMessage type (some field) entry.2).problems := by
  simp only [perform, walkNested, keyed, Walked.problems_map, Walked.problems_members]
  rfl

/-- What becomes of a message, key by key. -/
theorem value_perform_object (members : List (String × Tree)) :
    (walker.perform (.message type owner) (.object members)).value =
      some (.object (Members.rewrite (walker.fate walker.enterMessage type) members)) := by
  rw [perform, walkMessage_object, Walked.value_map, Walked.value_map, value_walkMembers]

/-- A message reports what its members report. -/
theorem problems_perform_object (members : List (String × Tree)) :
    (walker.perform (.message type owner) (.object members)).problems =
      (walker.walkMembers walker.enterMessage type members).problems := by
  rw [perform, walkMessage_object, Walked.problems_map, Walked.problems_map]

/-- The value of the only alternative of a group is walked as the value of a field. -/
theorem perform_group {group active : String}
    (declared : type.alternative? group active = some field) (inner : Tree) :
    walker.perform (.group type group) (.object [(active, inner)]) =
      (fun inner => some (Tree.object [(active, inner)])) <$>
        walker.walkField walker.enterMessage type field inner :=
  walkGroup_of_alternative?_eq_some walker walker.enterMessage type declared inner

end Equations

/-- The walk of a tree contains the walk of one of its parts, and nothing else is done to this
part. -/
structure Hands (walker : Walker) (task : Task) (tree : Tree) (steps : List Step) (next : Task)
    (part : Tree) : Prop where
  /-- The schema leads from the one to the other. -/
  passes : walker.registry.Passes walker.policy task steps next
  /-- The part is where the steps lead. -/
  found : tree.part? steps = some part
  /-- No other declaration claims the part. -/
  alone : task.Alone next
  /-- A group has its only alternative. -/
  chosen : task.Chosen tree
  /-- Messages are entered. -/
  entered : walker.Enters next

/-- A walk reaches a part of a tree. -/
inductive Reaches (walker : Walker) : Task → Tree → List Step → Task → Tree → Prop where
  /-- The tree itself. -/
  | here (task : Task) (tree : Tree) : Reaches walker task tree [] task tree
  /-- A part of a part. -/
  | step {task next last : Task} {tree part value : Tree} {steps path : List Step}
      (hands : walker.Hands task tree steps next part)
      (later : Reaches walker next part path last value) :
      Reaches walker task tree (steps ++ path) last value

variable {walker : Walker} {task next last : Task} {tree part value : Tree} {steps path : List Step}

/-- What the walk of a part yields stands in the result of the walk of the tree. -/
theorem Hands.performed (hands : walker.Hands task tree steps next part) {result : Tree}
    (done : (walker.perform next part).value = some result) :
    ∃ whole, (walker.perform task tree).value = some whole ∧ whole.part? steps = some result := by
  obtain ⟨passes, found, alone, chosen, entered⟩ := hands
  cases passes with
  | root known =>
    obtain rfl := Option.some.inj found
    exact ⟨result, by rw [perform_root known entered, done], rfl⟩
  | plain declared =>
    rw [part?_singleton] at found
    obtain ⟨members, rfl, found⟩ := eq_object_of_inner?_key found
    have becomes := (fate_of_sole alone.1 alone.2 part).trans done
    exact ⟨_, value_perform_object members,
      (part?_singleton _ _).trans (Members.find?_rewrite found becomes)⟩
  | group listed =>
    rw [part?_singleton] at found
    obtain ⟨members, rfl, found⟩ := eq_object_of_inner?_key found
    have becomes := (fate_of_group listed alone part).trans done
    exact ⟨_, value_perform_object members,
      (part?_singleton _ _).trans (Members.find?_rewrite found becomes)⟩
  | alternative declared =>
    rw [part?_singleton] at found
    obtain rfl := eq_object_singleton chosen found
    rw [perform_group declared, Walked.value_map]
    obtain rfl := Option.some.inj done
    exact ⟨_, rfl, (part?_singleton _ _).trans (if_pos rfl)⟩
  | messages expects =>
    obtain rfl := Option.some.inj found
    exact ⟨result, by rw [perform_field expects entered, done], rfl⟩
  | single one =>
    obtain rfl := Option.some.inj found
    exact ⟨result, by rw [perform_nested_singular one, done], rfl⟩
  | item several position =>
    rw [part?_singleton] at found
    obtain ⟨items, rfl, found⟩ := eq_list_of_inner?_index found
    obtain rfl := Option.some.inj done
    refine ⟨_, value_perform_list several items, (part?_singleton _ _).trans ?_⟩
    exact List.getElem?_map.trans (congrArg (Option.map _) found)
  | entry keyed key =>
    rw [part?_singleton] at found
    obtain ⟨members, rfl, found⟩ := eq_object_of_inner?_key found
    obtain rfl := Option.some.inj done
    exact ⟨_, value_perform_map keyed members,
      (part?_singleton _ _).trans (Members.find?_rewrite found rfl)⟩

/-- What the walk of a part reports, the walk of the tree reports. -/
theorem Hands.reported (hands : walker.Hands task tree steps next part) :
    (walker.perform next part).problems.Sublist (walker.perform task tree).problems := by
  obtain ⟨passes, found, alone, chosen, entered⟩ := hands
  cases passes with
  | root known =>
    obtain rfl := Option.some.inj found
    rw [perform_root known entered]
  | plain declared =>
    rw [part?_singleton] at found
    obtain ⟨members, rfl, found⟩ := eq_object_of_inner?_key found
    rw [problems_perform_object, perform, Walked.problems_map]
    exact sublist_problems_of_sole alone.1 (Members.mem_of_find? found)
  | group listed =>
    rw [part?_singleton] at found
    obtain ⟨members, rfl, found⟩ := eq_object_of_inner?_key found
    rw [problems_perform_object]
    exact sublist_problems_of_group listed alone (Members.mem_of_find? found)
  | alternative declared =>
    rw [part?_singleton] at found
    obtain rfl := eq_object_singleton chosen found
    rw [perform_group declared, Walked.problems_map, perform, Walked.problems_map]
  | messages expects =>
    obtain rfl := Option.some.inj found
    rw [perform_field expects entered]
  | single one =>
    obtain rfl := Option.some.inj found
    rw [perform_nested_singular one]
  | @item parent type field several position =>
    rw [part?_singleton] at found
    obtain ⟨items, rfl, found⟩ := eq_list_of_inner?_index found
    rw [problems_perform_list several, perform, Walked.problems_map]
    exact Members.sublist_flatMap_of_mem (List.mem_of_getElem? found) fun item =>
      (walker.walkMessage type (some field) item).problems
  | @entry parent type field keyed key =>
    rw [part?_singleton] at found
    obtain ⟨members, rfl, found⟩ := eq_object_of_inner?_key found
    rw [problems_perform_map keyed, perform, Walked.problems_map]
    exact Members.sublist_flatMap_of_mem (Members.mem_of_find? found) fun entry =>
      (walker.walkMessage type (some field) entry.2).problems

/-- A part of a part that is reached is reached. -/
theorem Reaches.trans {middle : Task} {inner : Tree} {rest : List Step}
    (before : walker.Reaches task tree path middle inner)
    (after : walker.Reaches middle inner rest last value) :
    walker.Reaches task tree (path ++ rest) last value := by
  induction before with
  | here => exact after
  | step hands _ ih =>
    rw [List.append_assoc]
    exact .step hands (ih after)

/-- What the walk of a part that is reached yields stands in the result at the same path. -/
theorem Reaches.performed (reached : walker.Reaches task tree path last value) {result : Tree}
    (done : (walker.perform last value).value = some result) :
    ∃ whole, (walker.perform task tree).value = some whole ∧ whole.part? path = some result := by
  induction reached with
  | here task tree => exact ⟨result, done, rfl⟩
  | step hands _ ih =>
    obtain ⟨inner, yields, later⟩ := ih done
    obtain ⟨whole, outer, here⟩ := hands.performed yields
    exact ⟨whole, outer, by rw [part?_append, here, Option.bind_some, later]⟩

/-- What the walk of a part that is reached reports is reported. -/
theorem Reaches.reported (reached : walker.Reaches task tree path last value) :
    (walker.perform last value).problems.Sublist (walker.perform task tree).problems := by
  induction reached with
  | here task tree => exact .refl _
  | step hands _ ih => exact ih.trans hands.reported

/-- The types of the messages that are reached belong to the registry. -/
theorem Reaches.knows (reached : walker.Reaches task tree path last value)
    (known : walker.registry.Knows task) : walker.registry.Knows last := by
  induction reached with
  | here => exact known
  | step hands _ ih => exact ih (hands.passes.knows known)

/-- Only messages of harmless types are left alone. -/
theorem clears_of_not_enters (safe : walker.SkipsHarmless) (known : walker.registry.Knows task)
    (alone : ¬ walker.Enters task) : walker.registry.Clears walker.policy task := by
  cases task with
  | message type owner => exact safe type known (eq_true_of_ne_false alone)
  | nested parent field type => exact safe type known (eq_true_of_ne_false alone)
  | _ => exact absurd trivial alone

/-- A walker that clears no type enters all messages. -/
theorem enters_of_cleared_eq_nil (nothing : walker.cleared = []) (task : Task) :
    walker.Enters task := by
  cases task with
  | message | nested => rw [Enters, skips, nothing]; rfl
  | _ => exact trivial

section Thorough

variable (undotted : walker.registry.Undotted)

include undotted

/-- Nothing secret and no missing type comes at any part inside a message of a harmless type. -/
theorem Reaches.clears (reached : walker.thorough.Reaches task tree path last value)
    (known : walker.registry.Knows task) (clears : walker.registry.Clears walker.policy task) :
    walker.registry.Clears walker.policy last := by
  induction reached with
  | here => exact clears
  | step hands _ ih =>
    exact ih (hands.passes.knows known) (hands.passes.clears undotted known clears)

/-- A part after which something secret or a missing type comes is reached by a walk that leaves
only messages of harmless types alone. -/
theorem Reaches.of_thorough (safe : walker.SkipsHarmless)
    (reached : walker.thorough.Reaches task tree path last value)
    (known : walker.registry.Knows task)
    (harmful : ¬ walker.registry.Clears walker.policy last) :
    walker.Reaches task tree path last value := by
  induction reached with
  | here task tree => exact .here task tree
  | @step task next _ _ _ _ _ _ hands later ih =>
    have passed : walker.registry.Knows next := hands.passes.knows known
    have inside : ¬ walker.registry.Clears walker.policy next := fun clears =>
      harmful (later.clears undotted passed clears)
    have entered : walker.Enters next := Classical.not_not.mp fun alone =>
      inside (clears_of_not_enters safe passed alone)
    exact .step ⟨hands.passes, hands.found, hands.alone, hands.chosen, entered⟩ (ih passed harmful)

end Thorough

/-- The walker of a configuration reaches all parts that the schema leads to unless unknown data is
kept, and also then those after which something secret or a missing type comes. -/
theorem Reaches.of_thorough_ofConfig {registry : Registry} {config : Config}
    {additional : AdditionalNames} {reference : String}
    (reached : (ofConfig registry config additional).thorough.Reaches (.root reference) tree path
      last value)
    (searched : config.unknownFields ≠ .keep ∨
      registry.Undotted ∧ ¬ registry.Clears ⟨config.secretSuffix, additional⟩ last) :
    (ofConfig registry config additional).Reaches (.root reference) tree path last value := by
  rcases searched with removes | ⟨undotted, harmful⟩
  · have same : (ofConfig registry config additional).thorough =
        ofConfig registry config additional := by
      simp only [thorough, ofConfig, if_neg removes]
    rwa [same] at reached
  · have sameTypes : (ofConfig registry config additional).registry.Undotted := undotted
    exact reached.of_thorough sameTypes (skipsHarmless_ofConfig config additional undotted) trivial
      harmful

end Walker

end Redaction

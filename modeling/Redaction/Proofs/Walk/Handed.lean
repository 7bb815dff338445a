import Mathlib.Data.List.Pairwise
import Redaction.Proofs.Tree.Blotted
import Redaction.Proofs.Walk.Misfit

/-!
# The parts that the walk of a value hands on

Where no key belongs to two fields, the walk of a value comes down to the walks of some of its
parts, or of the value itself as something else. These are listed here in the order of the walk. In
a canonical tree the list contains exactly what the relation `Hands` says, and the paths to any two
parts are apart.
-/

namespace Redaction

open Schema Redaction.Tree

/-- A part of a value: the steps to it and what it is walked as. -/
structure Handed where
  /-- The steps from the value to the part. -/
  steps : List Step
  /-- What the part is walked as. -/
  task : Task
  /-- The part. -/
  part : Tree

/-- Whether neither of the paths to two parts leads on from the other. -/
def Handed.Apart (first second : Handed) : Prop := Step.Apart first.steps second.steps

namespace Walker

/-- The parts of a value that are walked next, in order. -/
def handed (walker : Walker) : Task → Tree → List Handed
  | .root reference, tree =>
    match walker.registry.get? reference with
    | some type => if walker.skips type then [] else [⟨[], .message type none, tree⟩]
    | none => []
  | .message type _, .object members =>
    (type.plainFields.flatMap fun field => Members.gather field.name
      (fun value => [⟨[.key field.name], .field type field, value⟩]) members) ++
    type.groups.flatMap fun group => Members.gather group
      (fun value => [⟨[.key group], .group type group, value⟩]) members
  | .group type group, .object [(active, inner)] =>
    (type.alternative? group active).toList.map fun field =>
      ⟨[.key active], .field type field, inner⟩
  | .field parent field, value =>
    match walker.registry.outlook walker.policy field with
    | .message type => if walker.skips type then [] else [⟨[], .nested parent field type, value⟩]
    | .secret | .scalar | .missing _ => []
  | .nested _ field type, value =>
    match field.cardinality, value with
    | .singular, value => [⟨[], .message type (some field), value⟩]
    | .repeated, .list items =>
      items.zipIdx.map fun item => ⟨[.index item.2], .message type (some field), item.1⟩
    | .map, .object members =>
      members.map fun member => ⟨[.key member.1], .message type (some field), member.2⟩
    | _, _ => []
  | _, _ => []

/-- A whole tree is handed on as a message of the type that the reference means. -/
theorem mem_handed_root {walker : Walker} {reference : String} {tree : Tree} {next : Handed} :
    next ∈ walker.handed (.root reference) tree ↔
      ∃ type, walker.registry.get? reference = some type ∧ walker.skips type = false ∧
        next = ⟨[], .message type none, tree⟩ := by
  cases known : walker.registry.get? reference with
  | none => simp [Walker.handed, known]
  | some type => cases entered : walker.skips type <;> simp [Walker.handed, known, entered]

/-- The value of a field is handed on as messages of the type of the field. -/
theorem mem_handed_field {walker : Walker} {parent : Message} {field : Field} {tree : Tree}
    {next : Handed} :
    next ∈ walker.handed (.field parent field) tree ↔
      ∃ type, walker.registry.outlook walker.policy field = .message type ∧
        walker.skips type = false ∧ next = ⟨[], .nested parent field type, tree⟩ := by
  cases expects : walker.registry.outlook walker.policy field with
  | secret | scalar | missing => simp [Walker.handed, expects]
  | message type => cases entered : walker.skips type <;> simp [Walker.handed, expects, entered]

/-- A single message is handed on as such. -/
theorem mem_handed_single {walker : Walker} {parent type : Message} {field : Field}
    (one : field.cardinality = .singular) {tree : Tree} {next : Handed} :
    next ∈ walker.handed (.nested parent field type) tree ↔
      next = ⟨[], .message type (some field), tree⟩ := by
  simp only [Walker.handed, one, List.mem_singleton]

/-- The parts of a message are the values of its plain fields and groups. -/
theorem mem_handed_message {walker : Walker} {type : Message} {owner : Option Field}
    {members : List (String × Tree)} {next : Handed} :
    next ∈ walker.handed (.message type owner) (.object members) ↔
      (∃ field ∈ type.plainFields, ∃ value, (field.name, value) ∈ members ∧
        next = ⟨[.key field.name], .field type field, value⟩) ∨
      ∃ group ∈ type.groups, ∃ value, (group, value) ∈ members ∧
        next = ⟨[.key group], .group type group, value⟩ := by
  simp only [Walker.handed, List.mem_append, List.mem_flatMap, Members.mem_gather,
    List.mem_singleton]

/-- The part of a group is the value of the alternative in use. -/
theorem mem_handed_group {walker : Walker} {type : Message} {group : String} {tree : Tree}
    {next : Handed} :
    next ∈ walker.handed (.group type group) tree ↔
      ∃ active inner field, tree = .object [(active, inner)] ∧
        type.alternative? group active = some field ∧
        next = ⟨[.key active], .field type field, inner⟩ := by
  match tree with
  | .object [(active, inner)] => simp [Walker.handed, eq_comm]
  | .null | .stripped | .bool _ | .number _ | .string _ | .list _ | .object []
  | .object (_ :: _ :: _) => simp [Walker.handed]

/-- The parts of a list are its items. -/
theorem mem_handed_list {walker : Walker} {parent type : Message} {field : Field}
    (several : field.cardinality = .repeated) {tree : Tree} {next : Handed} :
    next ∈ walker.handed (.nested parent field type) tree ↔
      ∃ items position item, tree = .list items ∧ items[position]? = some item ∧
        next = ⟨[.index position], .message type (some field), item⟩ := by
  cases tree with
  | list items =>
    simp only [Walker.handed, several, List.mem_map, Prod.exists, List.mem_zipIdx_iff_getElem?,
      Tree.list.injEq]
    constructor
    · rintro ⟨item, position, found, rfl⟩
      exact ⟨items, position, item, rfl, found, rfl⟩
    · rintro ⟨_, position, item, rfl, found, rfl⟩
      exact ⟨item, position, found, rfl⟩
  | _ => simp [Walker.handed, several]

/-- The parts of a map are its values. -/
theorem mem_handed_map {walker : Walker} {parent type : Message} {field : Field}
    (keyed : field.cardinality = .map) {tree : Tree} {next : Handed} :
    next ∈ walker.handed (.nested parent field type) tree ↔
      ∃ members key value, tree = .object members ∧ (key, value) ∈ members ∧
        next = ⟨[.key key], .message type (some field), value⟩ := by
  cases tree with
  | object members =>
    simp only [Walker.handed, keyed, List.mem_map, Prod.exists, Tree.object.injEq]
    constructor
    · rintro ⟨key, value, present, rfl⟩
      exact ⟨members, key, value, rfl, present, rfl⟩
    · rintro ⟨_, key, value, rfl, present, rfl⟩
      exact ⟨key, value, present, rfl⟩
  | _ => simp [Walker.handed, keyed]

/-- What holds of a walk before each of its steps: the type is known, the keys ascend and the
messages are entered. -/
structure Proper (walker : Walker) (task : Task) (tree : Tree) : Prop where
  /-- The type of the messages belongs to the registry. -/
  knows : walker.registry.Knows task
  /-- The keys of every object ascend. -/
  canonical : tree.Canonical
  /-- Messages are not left alone. -/
  entered : walker.Enters task

variable {walker : Walker} {task : Task} {tree : Tree} {next : Handed}

/-- What is known before a step is known of the parts that are walked next. -/
theorem Proper.of_mem_handed (proper : walker.Proper task tree)
    (member : next ∈ walker.handed task tree) : walker.Proper next.task next.part := by
  obtain ⟨knows, canonical, entered⟩ := proper
  cases task with
  | root reference =>
    obtain ⟨type, known, enters, rfl⟩ := mem_handed_root.mp member
    exact ⟨Registry.mem_of_get?_eq_some known, canonical, enters⟩
  | message type owner =>
    cases tree with
    | object members =>
      have inner := canonicalMembers_iff.mp canonical.2
      rcases mem_handed_message.mp member with ⟨field, _, value, present, rfl⟩ |
        ⟨group, _, value, present, rfl⟩
      · exact ⟨trivial, inner _ present, trivial⟩
      · exact ⟨trivial, inner _ present, trivial⟩
    | _ => cases member
  | field parent field =>
    obtain ⟨type, expects, enters, rfl⟩ := mem_handed_field.mp member
    have resolved := (Registry.outlook_eq_message_iff.mp expects).2
    exact ⟨Registry.mem_of_nested?_eq_some resolved, canonical, enters⟩
  | nested parent field type =>
    cases h : field.cardinality with
    | singular =>
      obtain rfl := (mem_handed_single h).mp member
      exact ⟨knows, canonical, entered⟩
    | repeated =>
      obtain ⟨items, position, item, rfl, found, rfl⟩ := (mem_handed_list h).mp member
      exact ⟨knows, canonicalItems_iff.mp canonical item (List.mem_of_getElem? found), entered⟩
    | map =>
      obtain ⟨members, key, value, rfl, present, rfl⟩ := (mem_handed_map h).mp member
      exact ⟨knows, canonicalMembers_iff.mp canonical.2 _ present, entered⟩
  | group parent group =>
    obtain ⟨active, inner, field, rfl, _, rfl⟩ := mem_handed_group.mp member
    exact ⟨trivial, canonicalMembers_iff.mp canonical.2 _ (List.mem_singleton.mpr rfl), trivial⟩

/-- Where keys are distinct, each leads to its value. -/
theorem part?_of_mem {members : List (String × Tree)} {key : String} {value : Tree}
    (distinct : (Members.keys members).Nodup) (present : (key, value) ∈ members) :
    (Tree.object members).part? [.key key] = some value :=
  (part?_singleton _ _).trans ((Members.find?_eq_some_iff distinct).mpr present)

section Parts

variable {type : Message} {owner : Option Field} {members : List (String × Tree)}
  (keys : type.KeysApart) (distinct : (Members.keys members).Nodup)

include keys distinct

/-- The value of a plain field of a message is walked next. -/
theorem hands_plain {field : Field} {value : Tree} (declared : field ∈ type.plainFields)
    (present : (field.name, value) ∈ members) :
    walker.Hands (.message type owner) (.object members) [.key field.name] (.field type field)
      value where
  passes := .plain declared
  found := part?_of_mem distinct present
  alone := ⟨keys.claimants_of_mem declared, keys.groups field declared⟩
  chosen := trivial
  entered := trivial

/-- The value of a group of a message is walked next. -/
theorem hands_group {group : String} {value : Tree} (listed : group ∈ type.groups)
    (present : (group, value) ∈ members) :
    walker.Hands (.message type owner) (.object members) [.key group] (.group type group)
      value where
  passes := .group listed
  found := part?_of_mem distinct present
  alone := keys.claimants_of_group listed
  chosen := trivial
  entered := trivial

/-- What is listed for a message is walked next. -/
theorem hands_of_mem_message
    (member : next ∈ walker.handed (.message type owner) (.object members)) :
    walker.Hands (.message type owner) (.object members) next.steps next.task next.part := by
  rcases mem_handed_message.mp member with ⟨field, declared, value, present, rfl⟩ |
    ⟨group, listed, value, present, rfl⟩
  · exact hands_plain keys distinct declared present
  · exact hands_group keys distinct listed present

end Parts

/-- What is listed for the messages of a field is walked next. -/
theorem hands_of_mem_nested {parent type : Message} {field : Field} (canonical : tree.Canonical)
    (entered : walker.skips type = false)
    (member : next ∈ walker.handed (.nested parent field type) tree) :
    walker.Hands (.nested parent field type) tree next.steps next.task next.part := by
  cases h : field.cardinality with
  | singular =>
    obtain rfl := (mem_handed_single h).mp member
    exact ⟨.single h, rfl, trivial, trivial, entered⟩
  | repeated =>
    obtain ⟨items, position, item, rfl, found, rfl⟩ := (mem_handed_list h).mp member
    exact ⟨.item h position, (part?_singleton _ _).trans found, trivial, trivial, entered⟩
  | map =>
    obtain ⟨members, key, value, rfl, present, rfl⟩ := (mem_handed_map h).mp member
    exact ⟨.entry h key, part?_of_mem canonical.1.nodup_keys present, trivial, trivial, entered⟩

/-- The parts that are listed are walked next. -/
theorem hands_of_mem_handed (apart : walker.registry.KeysApart) (proper : walker.Proper task tree)
    (member : next ∈ walker.handed task tree) :
    walker.Hands task tree next.steps next.task next.part := by
  cases task with
  | root reference =>
    obtain ⟨type, known, entered, rfl⟩ := mem_handed_root.mp member
    exact ⟨.root known, rfl, trivial, trivial, entered⟩
  | message type owner =>
    cases tree with
    | object members =>
      exact hands_of_mem_message (apart type proper.knows) proper.canonical.1.nodup_keys member
    | _ => cases member
  | field parent field =>
    obtain ⟨type, expects, entered, rfl⟩ := mem_handed_field.mp member
    exact ⟨.messages expects, rfl, trivial, trivial, entered⟩
  | nested parent field type => exact hands_of_mem_nested proper.canonical proper.entered member
  | group parent group =>
    obtain ⟨active, inner, field, rfl, declared, rfl⟩ := mem_handed_group.mp member
    exact ⟨.alternative declared, (part?_singleton _ _).trans (if_pos rfl), trivial, rfl, trivial⟩

/-- The parts that are walked next are listed. -/
theorem mem_handed_of_hands {steps : List Step} {last : Task} {part : Tree}
    (hands : walker.Hands task tree steps last part) :
    ⟨steps, last, part⟩ ∈ walker.handed task tree := by
  obtain ⟨passes, found, _, chosen, entered⟩ := hands
  cases passes with
  | root known =>
    obtain rfl := Option.some.inj found
    exact mem_handed_root.mpr ⟨_, known, entered, rfl⟩
  | plain declared =>
    rw [part?_singleton] at found
    obtain ⟨members, rfl, found⟩ := eq_object_of_inner?_key found
    exact mem_handed_message.mpr (.inl ⟨_, declared, part, Members.mem_of_find? found, rfl⟩)
  | group listed =>
    rw [part?_singleton] at found
    obtain ⟨members, rfl, found⟩ := eq_object_of_inner?_key found
    exact mem_handed_message.mpr (.inr ⟨_, listed, part, Members.mem_of_find? found, rfl⟩)
  | alternative declared =>
    rw [part?_singleton] at found
    exact mem_handed_group.mpr ⟨_, part, _, eq_object_singleton chosen found, declared, rfl⟩
  | messages expects =>
    obtain rfl := Option.some.inj found
    exact mem_handed_field.mpr ⟨_, expects, entered, rfl⟩
  | single one =>
    obtain rfl := Option.some.inj found
    exact (mem_handed_single one).mpr rfl
  | item several position =>
    rw [part?_singleton] at found
    obtain ⟨items, rfl, found⟩ := eq_list_of_inner?_index found
    exact (mem_handed_list several).mpr ⟨items, position, part, rfl, found, rfl⟩
  | entry keyed key =>
    rw [part?_singleton] at found
    obtain ⟨members, rfl, found⟩ := eq_object_of_inner?_key found
    exact (mem_handed_map keyed).mpr ⟨members, key, part, rfl, Members.mem_of_find? found, rfl⟩

/-- The parts that are listed are those to which the relation leads. -/
theorem mem_handed_iff (apart : walker.registry.KeysApart) (proper : walker.Proper task tree) :
    next ∈ walker.handed task tree ↔
      walker.Hands task tree next.steps next.task next.part :=
  ⟨hands_of_mem_handed apart proper, mem_handed_of_hands⟩

/-- A value that does not fit hands nothing on. -/
theorem handed_of_misfit {problem : Problem}
    (misfit : walker.registry.misfit? walker.policy task tree = some problem) :
    walker.handed task tree = [] := by
  cases task with
  | root reference =>
    rw [Registry.misfit?] at misfit
    split at misfit
    · next missing => rw [Walker.handed, Option.isNone_iff_eq_none.mp missing]
    · cases misfit
  | message type owner =>
    cases tree with
    | object members => cases misfit
    | _ => rfl
  | field parent field =>
    rw [Registry.misfit?] at misfit
    split at misfit
    · next missing => rw [Walker.handed, missing]
    all_goals cases misfit
  | nested parent field type =>
    rw [Registry.misfit?] at misfit
    cases h : field.cardinality with
    | singular =>
      rw [h] at misfit
      cases misfit
    | repeated =>
      rw [h] at misfit
      cases tree with
      | list items => cases misfit
      | _ => simp only [Walker.handed, h]
    | map =>
      rw [h] at misfit
      cases tree with
      | object members => cases misfit
      | _ => simp only [Walker.handed, h]
  | group parent group =>
    cases tree with
    | object members =>
      rcases members with _ | ⟨_, _ | ⟨_, _⟩⟩
      · rfl
      · cases misfit
      · rfl
    | _ => rfl

/-- The values of distinct keys are apart. -/
theorem pairwise_gather {α : Type} {keys : List α} {key : α → String} {next : α → Task}
    (distinct : (keys.map key).Nodup) {members : List (String × Tree)}
    (once : (Members.keys members).Nodup) :
    (keys.flatMap fun item => Members.gather (key item)
      (fun value => [(⟨[.key (key item)], next item, value⟩ : Handed)]) members).Pairwise
      Handed.Apart := by
  rw [List.pairwise_flatMap]
  constructor
  · intro item _
    by_cases present : key item ∈ Members.keys members
    · obtain ⟨⟨_, value⟩, member, rfl⟩ := List.mem_map.mp present
      rw [Members.gather_of_mem once member]
      exact List.pairwise_singleton _ _
    · rw [Members.gather_of_not_mem _ present]
      exact .nil
  · rw [List.Nodup, List.pairwise_map] at distinct
    refine distinct.imp fun different => ?_
    intro first here second there
    obtain ⟨_, _, inside⟩ := Members.mem_gather.mp here
    obtain rfl := List.mem_singleton.mp inside
    obtain ⟨_, _, inside⟩ := Members.mem_gather.mp there
    obtain rfl := List.mem_singleton.mp inside
    exact Step.apart_singleton_iff.mpr fun same => different (Step.key.inj same)

/-- The parts of a message are apart: no key belongs to two plain fields, to two groups, or to a
plain field and a group. -/
theorem pairwise_message {type : Message} {owner : Option Field} {members : List (String × Tree)}
    (keys : type.KeysApart) (once : (Members.keys members).Nodup) :
    (walker.handed (.message type owner) (.object members)).Pairwise Handed.Apart := by
  rw [Walker.handed, List.pairwise_append]
  refine ⟨pairwise_gather keys.plain once, ?_, ?_⟩
  · have distinct : (type.groups.map id).Nodup := by
      rw [List.map_id]
      exact type.groups_nodup
    exact pairwise_gather distinct once
  · intro first here second there
    obtain ⟨field, declared, inside⟩ := List.mem_flatMap.mp here
    obtain ⟨_, _, inside⟩ := Members.mem_gather.mp inside
    obtain rfl := List.mem_singleton.mp inside
    obtain ⟨group, listed, inside⟩ := List.mem_flatMap.mp there
    obtain ⟨_, _, inside⟩ := Members.mem_gather.mp inside
    obtain rfl := List.mem_singleton.mp inside
    exact Step.apart_singleton_iff.mpr fun same =>
      keys.groups field declared (Step.key.inj same ▸ listed)

/-- The items of a list are apart. -/
theorem pairwise_list {parent type : Message} {field : Field}
    (several : field.cardinality = .repeated) :
    (walker.handed (.nested parent field type) tree).Pairwise Handed.Apart := by
  cases tree with
  | list items =>
    simp only [Walker.handed, several]
    rw [List.pairwise_map]
    have positions : (items.zipIdx.map Prod.snd).Nodup := by
      rw [List.zipIdx_map_snd]
      exact List.nodup_range'
    rw [List.Nodup, List.pairwise_map] at positions
    exact positions.imp fun different => Step.apart_singleton_iff.mpr fun same =>
      different (Step.index.inj same)
  | _ => simp only [Walker.handed, several]; exact .nil

/-- The values of a map are apart. -/
theorem pairwise_map {parent type : Message} {field : Field} (keyed : field.cardinality = .map)
    (canonical : tree.Canonical) :
    (walker.handed (.nested parent field type) tree).Pairwise Handed.Apart := by
  cases tree with
  | object members =>
    have once := canonical.1.nodup_keys
    rw [Members.keys, List.Nodup, List.pairwise_map] at once
    simp only [Walker.handed, keyed]
    rw [List.pairwise_map]
    exact once.imp fun different => Step.apart_singleton_iff.mpr fun same =>
      different (Step.key.inj same)
  | _ => simp only [Walker.handed, keyed]; exact .nil

/-- A group has one part at most. -/
theorem pairwise_group {type : Message} {group : String} :
    (walker.handed (.group type group) tree).Pairwise Handed.Apart := by
  match tree with
  | .object [(active, inner)] =>
    rw [Walker.handed]
    cases type.alternative? group active with
    | none => exact .nil
    | some field => exact List.pairwise_singleton _ _
  | .null | .stripped | .bool _ | .number _ | .string _ | .list _ | .object []
  | .object (_ :: _ :: _) => exact .nil

/-- The paths to any two parts that are walked next are apart. -/
theorem pairwise_handed (apart : walker.registry.KeysApart) (proper : walker.Proper task tree) :
    (walker.handed task tree).Pairwise Handed.Apart := by
  cases task with
  | root reference =>
    rw [Walker.handed]
    split
    · split
      · exact .nil
      · exact List.pairwise_singleton _ _
    · exact .nil
  | message type owner =>
    cases tree with
    | object members =>
      exact pairwise_message (apart type proper.knows) proper.canonical.1.nodup_keys
    | _ => exact .nil
  | field parent field =>
    rw [Walker.handed]
    split
    · split
      · exact .nil
      · exact List.pairwise_singleton _ _
    all_goals exact .nil
  | nested parent field type =>
    cases h : field.cardinality with
    | singular =>
      simp only [Walker.handed, h]
      exact List.pairwise_singleton _ _
    | repeated => exact pairwise_list h
    | map => exact pairwise_map h proper.canonical
  | group parent group => exact pairwise_group

/-- Only one part that is walked next lies on a path. -/
theorem eq_of_mem_handed (apart : walker.registry.KeysApart) (proper : walker.Proper task tree)
    {first second : Handed} (one : first ∈ walker.handed task tree)
    (other : second ∈ walker.handed task tree) {path : List Step}
    (leads : first.steps <+: second.steps ++ path) : first = second := by
  refine Classical.not_not.mp fun different => ?_
  have symmetric : Std.Symm Handed.Apart := ⟨fun _ _ => And.symm⟩
  have distant : Step.Apart first.steps second.steps :=
    (pairwise_handed apart proper).forall one other different
  have still := (distant.append [] path).1
  rw [List.append_nil] at still
  exact still leads

/-- How many steps a walk of the value takes at most: those for each level, and some for what the
value is walked as. -/
def weight (task : Task) (tree : Tree) : Nat :=
  4 * tree.depth + match task with
    | .root _ => 3
    | .field _ _ => 2
    | .nested _ _ _ => 1
    | .message _ _ | .group _ _ => 0

/-- What is walked next takes fewer steps. -/
theorem weight_lt_of_mem_handed (member : next ∈ walker.handed task tree) :
    weight next.task next.part < weight task tree := by
  cases task with
  | root reference =>
    obtain ⟨type, _, _, rfl⟩ := mem_handed_root.mp member
    simp [weight]
  | message type owner =>
    cases tree with
    | object members =>
      have low := membersDepth_le_iff.mp (Nat.le_refl (membersDepth members))
      rcases mem_handed_message.mp member with ⟨field, _, value, present, rfl⟩ |
        ⟨group, _, value, present, rfl⟩
      all_goals
        have below := low _ present
        simp only [weight, depth] at below ⊢
        omega
    | _ => cases member
  | field parent field =>
    obtain ⟨type, _, _, rfl⟩ := mem_handed_field.mp member
    simp [weight]
  | nested parent field type =>
    cases h : field.cardinality with
    | singular =>
      obtain rfl := (mem_handed_single h).mp member
      simp [weight]
    | repeated =>
      obtain ⟨items, position, item, rfl, found, rfl⟩ := (mem_handed_list h).mp member
      have below := itemsDepth_le_iff.mp (Nat.le_refl _) item (List.mem_of_getElem? found)
      simp only [weight, depth]
      omega
    | map =>
      obtain ⟨members, key, value, rfl, present, rfl⟩ := (mem_handed_map h).mp member
      have below := membersDepth_le_iff.mp (Nat.le_refl _) _ present
      simp only [weight, depth] at below ⊢
      omega
  | group parent group =>
    obtain ⟨active, inner, field, rfl, _, rfl⟩ := mem_handed_group.mp member
    simp only [weight, depth, membersDepth]
    omega

end Walker

end Redaction

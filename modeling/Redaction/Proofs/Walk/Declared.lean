import Redaction.Proofs.Walk.OnlyRedacts
import Redaction.Proofs.Walk.Reached

/-!
# Secret declarations

A message type may declare plain fields and groups more than once under the same name. Each of the
plain fields walks the value of the key, and of the alternatives of a group the first one of a name.
So a secret plain field counts wherever it stands among those of its name, and what it covers is
taken out on any way through the types.
-/

namespace Redaction

open Schema Redaction.Tree

/-- Everything that a tree has at the end of a path is the value of a secret field there, by one of
the declarations on the way. -/
inductive Schema.Registry.Covers (registry : Registry) (policy : Policy) :
    Task → Tree → List Step → Prop where
  /-- The value of a secret field. -/
  | secret {parent : Message} {field : Field} (secret : policy.isSensitive field = true)
      (tree : Tree) : Covers registry policy (.field parent field) tree []
  /-- What one of the declarations covers. -/
  | inside {task next : Task} {tree : Tree} {steps path : List Step}
      (passes : registry.Passes policy task steps next) (chosen : task.Chosen tree)
      (parts : ∀ part, tree.Has steps part → Covers registry policy next part path) :
      Covers registry policy task tree (steps ++ path)

namespace Schema.Registry

variable {registry : Registry} {policy : Policy} {type : Message} {owner : Option Field}
  {field : Field} {tree : Tree}

/-- A secret plain field covers its key in a message, whatever else is declared under the key. -/
theorem covers_plain (declared : field ∈ type.plainFields)
    (secret : policy.isSensitive field = true) :
    registry.Covers policy (.message type owner) tree [.key field.name] :=
  .inside (.plain declared) trivial fun part _ => .secret secret part

end Schema.Registry

namespace Walker

variable {walker : Walker}

section Stages

variable {enter : Enter} {message : Message} {field : Field} {group : String}
  (enters : Redacts (walker.unknownFields = .drop) enter)

include enters

/-- Each of the plain fields of a key walks the value at one stage. -/
theorem exists_stage_plainFate (message : Message) {fields : List Field}
    (declared : field ∈ fields) (value : Tree) :
    ∃ before, Redacted (walker.unknownFields = .drop) value before ∧
      Redacted (walker.unknownFields = .drop) (walker.walkField enter message field before).value
        (walker.plainFate enter message fields field.name value) := by
  induction fields generalizing value with
  | nil => cases declared
  | cons first rest ih =>
    rw [plainFate]
    rcases List.mem_cons.mp declared with rfl | later
    · rw [if_pos rfl]
      exact ⟨value, .refl value, redacted_plainFate enters rest _ _⟩
    · split
      · obtain ⟨before, earlier, after⟩ :=
          ih later (walker.walkField enter message first value).value
        exact ⟨before, (redacted_walkField enters first value).trans earlier, after⟩
      · exact ih later value

/-- Each of the plain fields of a key walks the value at one stage of the walk of the message. -/
theorem exists_stage_of_plain (declared : field ∈ message.plainFields) {value kept : Tree}
    (becomes : walker.fate enter message field.name value = some kept) :
    ∃ before, Redacted (walker.unknownFields = .drop) value before ∧
      Redacted (walker.unknownFields = .drop) (walker.walkField enter message field before).value
        kept := by
  have known : message.isKnownKey field.name = true :=
    Message.isKnownKey_iff.mpr (.inl ⟨field, declared, rfl⟩)
  rw [fate, settled, if_pos known, Option.bind_some] at becomes
  obtain ⟨before, earlier, after⟩ := exists_stage_plainFate enters message declared value
  exact ⟨before, earlier, after.trans ((rule_groupFate enters message.groups).redacted becomes)⟩

/-- A group walks the value of its key at the last stage of the walk of the message. -/
theorem exists_stage_of_group (listed : group ∈ message.groups) {value kept : Tree}
    (becomes : walker.fate enter message group value = some kept) :
    ∃ before, Redacted (walker.unknownFields = .drop) value before ∧
      (walker.walkGroup enter message group before).value = some kept := by
  have known : message.isKnownKey group = true := Message.isKnownKey_iff.mpr (.inr listed)
  rw [fate, settled, if_pos known, Option.bind_some,
    groupFate_of_mem walker enter message message.groups_nodup listed] at becomes
  exact ⟨_, redacted_plainFate enters message.plainFields group value, becomes⟩

end Stages

variable {task next : Task} {tree part : Tree} {steps path : List Step}

/-- A walk only redacts, whatever a value is walked as. -/
theorem veiled_perform {result : Tree} (done : (walker.perform task tree).value = some result) :
    Veiled (walker.unknownFields = .drop) tree result := by
  have enters := walker.redacts_enterMessage
  cases task with
  | root reference =>
    obtain rfl := Option.some.inj done
    exact (redacted_walkRoot walker reference tree).veiled
  | message type owner =>
    obtain rfl := Option.some.inj done
    exact (redacted_walkMessage type owner tree).veiled
  | field parent field =>
    obtain rfl := Option.some.inj done
    exact (redacted_walkField enters field tree).veiled
  | nested parent field type =>
    obtain rfl := Option.some.inj done
    exact (redacted_walkNested (fun part => enters type field part) tree).veiled
  | group parent group =>
    have redacted : (walker.perform (.group parent group) tree).value.elim
        (walker.unknownFields = .drop) (Redacted (walker.unknownFields = .drop) tree) :=
      redacted_walkGroup enters group tree
    rw [done] at redacted
    exact Redacted.veiled redacted

/-- Whether the walk of a tree, or of any veiled form of it, takes out what is at the end of a
path. -/
def Hides (walker : Walker) (task : Task) (tree : Tree) (path : List Step) : Prop :=
  ∀ later result, Veiled (walker.unknownFields = .drop) tree later →
    (walker.perform task later).value = some result → result.Conceals path

/-- What the walk of a message makes of a key comes from a value of this key. -/
theorem exists_fate_of_has {type : Message} {owner : Option Field} {result left : Tree}
    {key : String} (done : (walker.perform (.message type owner) tree).value = some result)
    (has : result.Has (.key key :: path) left) :
    ∃ value kept, tree.Has [.key key] value ∧
      walker.fate walker.enterMessage type key value = some kept ∧ kept.Has path left := by
  obtain ⟨results, kept, rfl, present, inner⟩ := has_key_iff.mp has
  obtain ⟨members, rfl, _⟩ := (veiled_perform done).eq_object
  rw [value_perform_object] at done
  obtain rfl := Tree.object.inj (Option.some.inj done)
  obtain ⟨value, before, becomes⟩ := Members.mem_rewrite.mp present
  exact ⟨value, kept, .member before (.here value), becomes, inner⟩

/-- If the walks of the parts hide a path, the walk of a part conceals it also in a veiled form of
the whole, and after other declarations of the part have been treated. -/
theorem conceals_of_parts {later value stage result : Tree}
    (parts : ∀ part, tree.Has steps part → walker.Hides next part path)
    (veiled : Veiled (walker.unknownFields = .drop) tree later) (has : later.Has steps value)
    (earlier : Veiled (walker.unknownFields = .drop) value stage)
    (done : (walker.perform next stage).value = some result) : result.Conceals path := by
  obtain ⟨origin, here, first⟩ := veiled.exists_of_has has
  exact parts origin here stage result (first.trans earlier) done

/-- If the walks of the parts hide a path, the walk of the whole does, whatever other declarations
do to the parts. -/
theorem hides_of_passes (passes : walker.registry.Passes walker.policy task steps next)
    (chosen : task.Chosen tree) (entered : walker.Enters next)
    (parts : ∀ part, tree.Has steps part → walker.Hides next part path) :
    walker.Hides task tree (steps ++ path) := by
  have enters := walker.redacts_enterMessage
  intro later result veiled done
  cases passes with
  | root known =>
    rw [perform_root known entered] at done
    exact parts tree (.here tree) later result veiled done
  | plain declared =>
    intro left has
    obtain ⟨value, kept, before, becomes, inner⟩ := exists_fate_of_has done has
    obtain ⟨stage, earlier, after⟩ := exists_stage_of_plain enters declared becomes
    have hidden := conceals_of_parts parts veiled before earlier.veiled rfl
    exact after.veiled.conceals hidden left inner
  | group listed =>
    intro left has
    obtain ⟨value, kept, before, becomes, inner⟩ := exists_fate_of_has done has
    obtain ⟨stage, earlier, after⟩ := exists_stage_of_group enters listed becomes
    exact conceals_of_parts parts veiled before earlier.veiled after left inner
  | @alternative type group active field declared =>
    intro left has
    obtain ⟨results, kept, rfl, present, inner⟩ := has_key_iff.mp has
    obtain ⟨members, rfl, each⟩ := (veiled_perform done).eq_object
    obtain ⟨value, only, _⟩ := each.exists_of_mem present
    have single : members = [(active, value)] :=
      eq_singleton_of_mem (veiled.isCrowded chosen) only
    subst single
    rw [perform_group declared, Walked.value_map] at done
    obtain rfl := Tree.object.inj (Option.some.inj done)
    obtain ⟨_, rfl⟩ := Prod.mk.inj (List.mem_singleton.mp present)
    exact conceals_of_parts parts veiled (.member only (.here value)) (.refl value) rfl left inner
  | messages expects =>
    rw [perform_field expects entered] at done
    exact parts tree (.here tree) later result veiled done
  | single one =>
    rw [perform_nested_singular one] at done
    exact parts tree (.here tree) later result veiled done
  | @item parent type field several position =>
    intro left has
    obtain ⟨results, kept, rfl, found, inner⟩ := has_index_iff.mp has
    obtain ⟨items, rfl, _⟩ := (veiled_perform done).eq_list
    rw [value_perform_list several] at done
    obtain rfl := Tree.list.inj (Option.some.inj done)
    rw [List.getElem?_map] at found
    obtain ⟨item, before, rfl⟩ := Option.map_eq_some_iff.mp found
    exact conceals_of_parts parts veiled (.item before (.here item)) (.refl item) rfl left inner
  | @entry parent type field keyed key =>
    intro left has
    obtain ⟨results, kept, rfl, present, inner⟩ := has_key_iff.mp has
    obtain ⟨members, rfl, _⟩ := (veiled_perform done).eq_object
    rw [value_perform_map keyed] at done
    obtain rfl := Tree.object.inj (Option.some.inj done)
    obtain ⟨value, before, becomes⟩ := Members.mem_rewrite.mp present
    obtain rfl := Option.some.inj becomes
    exact conceals_of_parts parts veiled (.member before (.here value)) (.refl value) rfl left inner

/-- Inside messages of harmless types nothing stands where a secret field is declared. -/
theorem not_has_of_covers {registry : Registry} {policy : Policy} (undotted : registry.Undotted)
    (covers : registry.Covers policy task tree path) (known : registry.Knows task)
    (clears : registry.Clears policy task) : ¬ tree.Has path part := by
  induction covers with
  | secret secret tree => exact absurd clears (Registry.not_clears_of_secret secret)
  | inside passes _ _ ih =>
    intro has
    obtain ⟨middle, here, inner⟩ := has_append_iff.mp has
    exact ih middle here (passes.knows known) (passes.clears undotted known clears) inner

/-- The value of a secret field is taken out. -/
theorem perform_of_secret {parent : Message} {field : Field}
    (secret : walker.policy.isSensitive field = true) (value : Tree) :
    (walker.perform (.field parent field) value).value = some .stripped := by
  have taken : walker.walkField walker.enterMessage parent field value = pure .stripped :=
    if_pos secret
  rw [perform, taken]
  rfl

/-- What a secret declaration covers is hidden if only messages of harmless types are left alone. -/
theorem hides_of_covers (safe : walker.SkipsHarmless)
    (sound : walker.cleared = [] ∨ walker.registry.Undotted)
    (covers : walker.registry.Covers walker.policy task tree path)
    (known : walker.registry.Knows task) : walker.Hides task tree path := by
  induction covers with
  | @secret parent field secret tree =>
    intro later result _ done left has
    obtain rfl := Option.some.inj ((perform_of_secret secret later).symm.trans done)
    exact has_nil_iff.mp has
  | @inside task next tree steps path passes chosen parts ih =>
    have passed : walker.registry.Knows next := passes.knows known
    by_cases entered : walker.Enters next
    · exact hides_of_passes passes chosen entered fun part has => ih part has passed
    · -- the messages are left alone, so nothing stands there that is declared as secret
      intro later result veiled done left has
      obtain ⟨origin, before, _⟩ := (veiled.trans (veiled_perform done)).exists_of_has has
      obtain ⟨middle, here, inner⟩ := has_append_iff.mp before
      have undotted := sound.resolve_left fun nothing =>
        entered (enters_of_cleared_eq_nil nothing next)
      exact absurd inner (not_has_of_covers undotted (parts middle here) passed
        (clears_of_not_enters safe passed entered))

/-- The value of a key is taken out of a message if any of the plain fields of the key is secret. -/
theorem fate_of_secret {enter : Enter} {type : Message} {field : Field}
    (enters : Redacts (walker.unknownFields = .drop) enter) (declared : field ∈ type.plainFields)
    (secret : walker.policy.isSensitive field = true) (value : Tree) :
    walker.fate enter type field.name value = some .stripped := by
  have known : type.isKnownKey field.name = true :=
    Message.isKnownKey_iff.mpr (.inl ⟨field, declared, rfl⟩)
  have plain : walker.plainFate enter type type.plainFields field.name value = .stripped := by
    obtain ⟨before, _, after⟩ := exists_stage_plainFate enters type declared value
    have taken : walker.walkField enter type field before = pure .stripped := if_pos secret
    rw [taken] at after
    exact after.veiled.eq_stripped
  rw [fate, settled, if_pos known, Option.bind_some, plain]
  by_cases listed : field.name ∈ type.groups
  · exact groupFate_of_mem walker enter type type.groups_nodup listed .stripped
  · exact groupFate_of_not_mem walker enter type .stripped listed

/-- The walker of a configuration leaves only messages of harmless types alone, and none at all
unless unknown data is kept. -/
theorem sound_ofConfig {registry : Registry} {config : Config} (additional : AdditionalNames)
    (searched : config.unknownFields ≠ .keep ∨ registry.Undotted) :
    (ofConfig registry config additional).SkipsHarmless ∧
      ((ofConfig registry config additional).cleared = [] ∨ registry.Undotted) := by
  rcases searched with removes | undotted
  · have nothing : (ofConfig registry config additional).cleared = [] := if_neg removes
    refine ⟨fun type _ skipped => ?_, .inl nothing⟩
    rw [skips, nothing] at skipped
    cases skipped
  · exact ⟨skipsHarmless_ofConfig config additional undotted, .inr undotted⟩

section Present

variable {reference active group : String} {type : Message} {owner : Option Field} {field : Field}
  {members : List (String × Tree)} {value : Tree}
  (reached : walker.Reaches (.root reference) tree path (.message type owner) (.object members))
  (secret : walker.policy.isSensitive field = true)

include reached secret

/-- In a message that is reached, the value of a secret plain field is taken out under its key. -/
theorem part?_of_secret_field (declared : field ∈ type.plainFields)
    (found : Members.find? field.name members = some value) :
    (walker.walkRoot reference tree).value.part? (path ++ [.key field.name]) = some .stripped := by
  have becomes := fate_of_secret walker.redacts_enterMessage declared secret value
  obtain ⟨whole, yields, here⟩ := reached.performed (value_perform_object members)
  obtain rfl := Option.some.inj yields
  rw [part?_append, here, Option.bind_some, part?_singleton]
  exact Members.find?_rewrite found becomes

/-- In a message that is reached, the value of a secret alternative in use is taken out under its
key in the group. -/
theorem part?_of_secret_alternative (declared : type.alternative? group active = some field)
    (apart : type.claimants group = [])
    (found : Members.find? group members = some (.object [(active, value)])) :
    (walker.walkRoot reference tree).value.part? (path ++ [.key group, .key active]) =
      some .stripped := by
  have grouped : walker.Hands (.message type owner) (.object members) [.key group]
      (.group type group) (.object [(active, value)]) :=
    ⟨.group (Message.mem_groups_of_alternative? declared), (part?_singleton _ _).trans found, apart,
      trivial, trivial⟩
  have chosen : walker.Hands (.group type group) (.object [(active, value)]) [.key active]
      (.field type field) value :=
    ⟨.alternative declared, (part?_singleton _ _).trans (if_pos rfl), trivial, rfl, trivial⟩
  have inside := reached.trans (.step grouped (.step chosen (.here _ _)))
  obtain ⟨whole, yields, here⟩ := inside.performed (perform_of_secret secret value)
  obtain rfl := Option.some.inj yields
  exact here

end Present

/-- Every secret plain field counts, wherever it stands among the declarations of its name, and so
does every secret alternative that is the first of its name in a group. Whatever way through the
types covers a path, nothing is left at its end. In a message that the walk reaches, the value of a
secret plain field is taken out under its key, and so is that of the alternative in use, if the
group has its key for itself. -/
theorem secret_declarations_count (registry : Registry) (config : Config)
    (additional : AdditionalNames)
    (searched : config.unknownFields ≠ .keep ∨ registry.Undotted) (reference : String)
    (tree : Tree) :
    let walker := ofConfig registry config additional
    let result := (walker.walkRoot reference tree).value
    (∀ path, registry.Covers walker.policy (.root reference) tree path → result.Conceals path) ∧
    ∀ path type owner members,
      walker.thorough.Reaches (.root reference) tree path (.message type owner) (.object members) →
      (∀ field ∈ type.plainFields, walker.policy.isSensitive field = true →
        ∀ value, Members.find? field.name members = some value →
          result.part? (path ++ [.key field.name]) = some .stripped) ∧
      ∀ group active field, type.alternative? group active = some field →
        walker.policy.isSensitive field = true → type.claimants group = [] →
        ∀ value, Members.find? group members = some (.object [(active, value)]) →
          result.part? (path ++ [.key group, .key active]) = some .stripped := by
  intro walker result
  obtain ⟨safe, sound⟩ := sound_ofConfig additional searched
  refine ⟨fun path covers => ?_, fun path type owner members reached => ?_⟩
  · exact hides_of_covers safe sound covers trivial tree result (.refl tree) rfl
  have harmful : ∀ field ∈ type.fields, walker.policy.isSensitive field = true →
      ¬ registry.Clears walker.policy (.message type owner) :=
    fun field declared secret clears => by
      have visible := clears.visible (reached.knows trivial) field declared
      rw [secret] at visible
      cases visible
  have entered : ∀ field ∈ type.fields, walker.policy.isSensitive field = true →
      walker.Reaches (.root reference) tree path (.message type owner) (.object members) :=
    fun field declared secret => reached.of_thorough_ofConfig
      (searched.imp_right fun undotted => ⟨undotted, harmful field declared secret⟩)
  constructor
  · intro field declared secret value found
    exact part?_of_secret_field (entered field (List.mem_of_mem_filter declared) secret) secret
      declared found
  · intro group active field declared secret apart value found
    have listed := List.mem_of_mem_filter (List.mem_of_find?_eq_some declared)
    exact part?_of_secret_alternative (entered field listed secret) secret declared apart found

/-- A type that declares a plain field and two alternatives of a group twice, each once as
secret. -/
def account : Message :=
  .ofDeclarations "bank.Account"
    [.field (.scalar "pin"), .field (.secret (.scalar "pin")),
      .oneof "login" [.secret (.scalar "token"), .scalar "token", .scalar "key"],
      .oneof "login" [.secret (.scalar "key")]]

/-- The second declaration of a plain field and the first one of an alternative are secret. -/
theorem account_pin_taken_out :
    let walker := ofConfig (.ofList [account]) {} .empty
    let tree : Tree := .object [("login", .object [("token", .string "t")]), ("pin", .string "1234")]
    let result := (walker.walkRoot "bank.Account" tree).value
    result.Conceals [.key "pin"] ∧ result.part? [.key "pin"] = some .stripped ∧
      result.part? [.key "login", .key "token"] = some .stripped := by
  intro walker tree result
  have known : walker.registry.get? "bank.Account" = some account := by decide
  have declared : Field.secret (.scalar "pin") ∈ account.plainFields := by decide
  have covered : walker.registry.Covers walker.policy (.root "bank.Account") tree [.key "pin"] :=
    .inside (.root known) trivial fun part _ => Registry.covers_plain declared (by decide)
  have opens : walker.thorough.Hands (.root "bank.Account") tree [] (.message account none) tree :=
    ⟨.root known, rfl, trivial, trivial, rfl⟩
  obtain ⟨conceals, taken⟩ := secret_declarations_count (.ofList [account]) {} .empty
    (.inl (by decide)) "bank.Account" tree
  obtain ⟨plain, chosen⟩ := taken [] account none _ (.step opens (.here _ _))
  exact ⟨conceals _ covered, plain _ declared (by decide) (.string "1234") (by decide),
    chosen "login" "token" ((Field.scalar "token").secret.inGroup "login") (by decide) (by decide)
      (by decide) (.string "t") (by decide)⟩

/-- A secret alternative does not count if one that is not secret is declared before it under the
same name in the group. -/
theorem account_key_stays :
    let walker := ofConfig (.ofList [account]) {} .empty
    let tree : Tree := .object [("login", .object [("key", .string "k")])]
    (∃ field ∈ account.alternatives "login", field.name = "key" ∧
      walker.policy.isSensitive field = true) ∧
      walker.walkRoot "bank.Account" tree = pure tree := by
  decide

end Walker

end Redaction

import Redaction.Proofs.Walk.Depth

/-!
# What may show after a walk

A schema permits the paths that lead through declared fields that are not secret, from message to
message, down to a field without messages. If nothing passes that does not fit the schema, every
leaf that shows after a walk lies on a permitted path. Nothing is assumed about the message types:
names may be repeated, may collide, and types may be missing or lead back to themselves.
-/

namespace Redaction

open Schema Redaction.Tree

namespace Schema.Registry

mutual

/-- A path through a message that the schema permits. -/
inductive Permits (registry : Registry) (policy : Policy) : Message → List Step → Prop where
  /-- Through the key of a plain field, if no plain field of this name is secret and each of them
  permits the rest. -/
  | plain {message : Message} {field : Field} {rest : List Step}
      (declared : field ∈ message.plainFields)
      (visible : ∀ other ∈ message.plainFields, other.name = field.name →
        policy.isSensitive other = false)
      (below : ∀ other ∈ message.plainFields, other.name = field.name →
        PermitsBelow registry policy other rest) :
      Permits registry policy message (.key field.name :: rest)
  /-- Through a group and the first of its alternatives that has the name of the one in use, if this
  alternative is not secret. -/
  | alternative {message : Message} {group active : String} {field : Field} {rest : List Step}
      (listed : group ∈ message.groups)
      (first : (message.alternatives group).find? (fun other => other.name == active) = some field)
      (visible : policy.isSensitive field = false)
      (below : PermitsBelow registry policy field rest) :
      Permits registry policy message (.key group :: .key active :: rest)

/-- A path through the value of a field that the schema permits. -/
inductive PermitsBelow (registry : Registry) (policy : Policy) : Field → List Step → Prop where
  /-- Anywhere in a value without messages. -/
  | scalar {field : Field} {rest : List Step} (plain : field.typeName? = none) :
      PermitsBelow registry policy field rest
  /-- Through the single message of a field. -/
  | singular {field : Field} {nested : Message} {rest : List Step}
      (single : field.cardinality = .singular) (resolved : registry.nested? field = some nested)
      (below : Permits registry policy nested rest) : PermitsBelow registry policy field rest
  /-- Through one message of a list. -/
  | item {field : Field} {nested : Message} {rest : List Step} {position : Nat}
      (repeated : field.cardinality = .repeated) (resolved : registry.nested? field = some nested)
      (below : Permits registry policy nested rest) :
      PermitsBelow registry policy field (.index position :: rest)
  /-- Through one message of a map. -/
  | entry {field : Field} {nested : Message} {rest : List Step} {key : String}
      (map : field.cardinality = .map) (resolved : registry.nested? field = some nested)
      (below : Permits registry policy nested rest) :
      PermitsBelow registry policy field (.key key :: rest)

end

end Schema.Registry

namespace Walker

/-- A walker that lets nothing pass that does not fit the schema and leaves no message alone. -/
structure Strict (walker : Walker) : Prop where
  /-- What does not fit is taken out. -/
  strips : walker.fallback = .strip
  /-- What is unknown is removed or taken out. -/
  guards : walker.unknownFields ≠ .keep
  /-- Every message is walked. -/
  searches : walker.cleared = []

variable {walker : Walker} {enter : Enter} {message : Message} {path : List Step} {leaf : Tree}

/-- Nothing shows where a value that does not fit has been taken out. -/
theorem not_shows_fallBack (strips : walker.fallback = .strip) (problem : Problem) (value : Tree) :
    ¬ (walker.fallBack problem value).value.Shows path leaf := by
  unfold fallBack
  rw [strips]
  exact not_shows_stripped

/-- Nothing shows where a value of the wrong shape was. -/
theorem not_shows_misshapen (strips : walker.fallback = .strip) (owner field : String)
    (expected : Expectation) (value : Tree) :
    ¬ (walker.misshapen owner field expected value).value.Shows path leaf := by
  unfold misshapen
  split
  · exact not_shows_null
  · exact not_shows_stripped
  · exact not_shows_fallBack strips _ _

section Step

variable (strict : walker.Strict)
  (redacts : Redacts (walker.unknownFields = .drop) enter)
  (enters : ∀ nested field part path, (enter nested field part).value.Shows path leaf →
    walker.registry.Permits walker.policy nested path)

include strict enters

/-- What shows in the messages of a field lies on a permitted path. -/
theorem permitsBelow_of_shows_walkNested {field : Field} {nested : Message} {value : Tree}
    (resolved : walker.registry.nested? field = some nested)
    (shows : (walker.walkNested enter message field nested value).value.Shows path leaf) :
    walker.registry.PermitsBelow walker.policy field path := by
  unfold walkNested at shows
  cases h : field.cardinality with
  | singular =>
    rw [h] at shows
    exact .singular h resolved (enters _ _ _ _ shows)
  | repeated =>
    rw [h] at shows
    dsimp only at shows
    split at shows
    · rw [Walked.value_map, Walked.value_items] at shows
      obtain ⟨position, item, rest, rfl, found, inner⟩ := shows_list_iff.mp shows
      rw [List.getElem?_map] at found
      obtain ⟨before, _, rfl⟩ := Option.map_eq_some_iff.mp found
      exact .item h resolved (enters _ _ _ _ inner)
    · exact absurd shows (not_shows_misshapen strict.strips _ _ _ _)
  | map =>
    rw [h] at shows
    dsimp only at shows
    split at shows
    · rw [Walked.value_map, Walked.value_members] at shows
      obtain ⟨key, part, rest, rfl, present, inner⟩ := shows_object_iff.mp shows
      obtain ⟨before, _, same⟩ := List.mem_map.mp present
      obtain ⟨rfl, rfl⟩ := Prod.mk.inj same
      exact .entry h resolved (enters _ _ _ _ inner)
    · exact absurd shows (not_shows_misshapen strict.strips _ _ _ _)

/-- What shows in the value of a field lies on a permitted path, and the field is not secret. -/
theorem permitsBelow_of_shows_walkField {field : Field} {value : Tree}
    (shows : (walker.walkField enter message field value).value.Shows path leaf) :
    walker.policy.isSensitive field = false ∧
      walker.registry.PermitsBelow walker.policy field path := by
  rw [walkField_eq] at shows
  cases h : walker.registry.outlook walker.policy field with
  | secret =>
    rw [h] at shows
    exact absurd shows not_shows_stripped
  | scalar =>
    obtain ⟨visible, plain⟩ := Registry.outlook_eq_scalar_iff.mp h
    exact ⟨visible, .scalar plain⟩
  | missing typeName =>
    rw [h] at shows
    exact absurd shows (not_shows_fallBack strict.strips _ _)
  | message nested =>
    obtain ⟨visible, resolved⟩ := Registry.outlook_eq_message_iff.mp h
    have entered : walker.skips nested = false := by simp [skips, strict.searches]
    rw [h] at shows
    dsimp only at shows
    rw [entered, if_neg Bool.false_ne_true] at shows
    exact ⟨visible, permitsBelow_of_shows_walkNested strict enters resolved shows⟩

/-- What shows in the value of a group lies below the first alternative of the name in use. -/
theorem permitsBelow_of_shows_walkGroup {group : String} {value kept : Tree}
    (walked : (walker.walkGroup enter message group value).value = some kept)
    (shows : kept.Shows path leaf) :
    ∃ active field rest, path = .key active :: rest ∧
      (message.alternatives group).find? (fun other => other.name == active) = some field ∧
      walker.policy.isSensitive field = false ∧
      walker.registry.PermitsBelow walker.policy field rest := by
  unfold walkGroup at walked
  split at walked
  · cases walked
    exact absurd shows not_shows_null
  · cases walked
    exact absurd shows not_shows_stripped
  · next active inner =>
    split at walked
    · next field first =>
      cases walked
      obtain ⟨key, part, rest, rfl, present, below⟩ := shows_object_iff.mp shows
      obtain ⟨rfl, rfl⟩ := Prod.mk.inj (List.mem_singleton.mp present)
      exact ⟨_, field, rest, rfl, first,
        permitsBelow_of_shows_walkField strict enters below⟩
    · split at walked
      · next mode => exact absurd mode strict.guards
      · cases walked
        obtain ⟨key, part, rest, rfl, present, below⟩ := shows_object_iff.mp shows
        obtain ⟨rfl, rfl⟩ := Prod.mk.inj (List.mem_singleton.mp present)
        exact absurd below not_shows_stripped
      · cases walked
  · cases walked
    exact absurd shows (not_shows_fallBack strict.strips _ _)
  · cases walked
    exact absurd shows (not_shows_fallBack strict.strips _ _)
  · cases walked
    exact absurd shows (not_shows_fallBack strict.strips _ _)

include redacts

/-- What shows after the plain fields of a message lies on a path that each plain field of this name
permits. -/
theorem permitsBelow_of_shows_plainFate
    {fields : List Field} {key : String} {value : Tree}
    (shows : (walker.plainFate enter message fields key value).Shows path leaf) :
    ∀ field ∈ fields, field.name = key → walker.policy.isSensitive field = false ∧
      walker.registry.PermitsBelow walker.policy field path := by
  induction fields generalizing value with
  | nil => simp
  | cons field rest ih =>
    rw [plainFate] at shows
    intro other member named
    rcases List.mem_cons.mp member with rfl | later
    · rw [if_pos named.symm] at shows
      have before := (redacted_plainFate redacts rest key _).shows shows
      exact permitsBelow_of_shows_walkField strict enters before
    · exact ih shows other later named

/-- What shows after the groups of a message showed before them, and it lies below an alternative if
the key names a group. -/
theorem permitsBelow_of_shows_groupFate
    {groups : List String} {key : String} {value kept : Tree}
    (walked : walker.groupFate enter message groups key value = some kept)
    (shows : kept.Shows path leaf) (listed : key ∈ groups) :
    ∃ active field rest, path = .key active :: rest ∧
      (message.alternatives key).find? (fun other => other.name == active) = some field ∧
      walker.policy.isSensitive field = false ∧
      walker.registry.PermitsBelow walker.policy field rest := by
  induction groups generalizing value with
  | nil => cases listed
  | cons group rest ih =>
    rw [groupFate] at walked
    obtain ⟨between, first, later⟩ := Option.bind_eq_some_iff.mp walked
    by_cases here : key = group
    · subst here
      rw [if_pos rfl] at first
      have redacted := (rule_groupFate redacts rest).redacted later
      exact permitsBelow_of_shows_walkGroup strict enters first (redacted.shows shows)
    · exact ih later ((List.mem_cons.mp listed).resolve_left here)

/-- What shows in a member of a message lies on a permitted path. -/
theorem permits_of_shows_fate
    {key : String} {value kept : Tree} (walked : walker.fate enter message key value = some kept)
    (shows : kept.Shows path leaf) :
    walker.registry.Permits walker.policy message (.key key :: path) := by
  obtain ⟨start, settled, later⟩ := Option.bind_eq_some_iff.mp walked
  have grouped := (rule_groupFate redacts message.groups).redacted later
  have before := grouped.shows shows
  by_cases known : message.isKnownKey key = true
  · by_cases listed : key ∈ message.groups
    · obtain ⟨active, field, rest, rfl, first, visible, below⟩ :=
        permitsBelow_of_shows_groupFate strict redacts enters later shows listed
      exact .alternative listed first visible below
    · obtain ⟨field, declared, rfl⟩ := (Message.isKnownKey_iff.mp known).resolve_right listed
      have each := permitsBelow_of_shows_plainFate strict redacts enters before
      exact .plain declared (fun other member named => (each other member named).1)
        (fun other member named => (each other member named).2)
  · -- an unknown key has lost its value before any field is looked at
    have lost : start = .stripped := by
      unfold Walker.settled at settled
      rw [if_neg known] at settled
      cases mode : walker.unknownFields with
      | keep => exact absurd mode strict.guards
      | strip =>
        rw [mode] at settled
        exact (Option.some.inj settled).symm
      | drop =>
        rw [mode] at settled
        cases settled
    subst lost
    exact absurd ((redacted_plainFate redacts _ key .stripped).shows before) not_shows_stripped

end Step

/-- What shows after a strict walk within any bound lies on a permitted path. -/
theorem permits_of_shows_walkWithin (strict : walker.Strict) (bound : Nat) (message : Message)
    (owner : Option Field) (value : Tree) (path : List Step)
    (shows : (walker.walkWithin bound message owner value).value.Shows path leaf) :
    walker.registry.Permits walker.policy message path := by
  induction bound generalizing message owner value path with
  | zero =>
    unfold walkWithin at shows
    split at shows
    · exact absurd shows not_shows_stripped
    · exact absurd shows (not_shows_misshapen strict.strips _ _ _ _)
  | succ bound ih =>
    unfold walkWithin at shows
    split at shows
    · rw [Walked.value_map, value_walkMembers] at shows
      obtain ⟨key, kept, rest, rfl, present, inner⟩ := shows_object_iff.mp shows
      obtain ⟨before, _, walked⟩ := Members.mem_rewrite.mp present
      exact permits_of_shows_fate strict (walker.redacts_walkWithin bound)
        (fun nested field part path => ih nested (some field) part path) walked inner
    · exact absurd shows (not_shows_misshapen strict.strips _ _ _ _)

/-- If nothing passes that does not fit the schema, and unknown data is dropped or taken out, every
leaf that shows after a walk lies on a path that the schema permits; in particular the root type is
known. -/
theorem permits_of_shows_walkRoot (registry : Registry) (config : Config)
    (additional : AdditionalNames) (reference : String) (tree : Tree)
    (strips : config.fallback = .strip) (guards : config.unknownFields ≠ .keep)
    {path : List Step} {leaf : Tree}
    (shows : ((Walker.ofConfig registry config additional).walkRoot reference tree).value.Shows
      path leaf) :
    ∃ message, registry.get? reference = some message ∧
      registry.Permits ⟨config.secretSuffix, additional⟩ message path := by
  have strict : (Walker.ofConfig registry config additional).Strict :=
    ⟨strips, guards, if_neg guards⟩
  unfold walkRoot at shows
  split at shows
  · exact absurd shows (not_shows_fallBack strict.strips _ _)
  · next message resolved =>
    have entered : (Walker.ofConfig registry config additional).skips message = false := by
      simp [skips, strict.searches]
    rw [entered, if_neg Bool.false_ne_true] at shows
    exact ⟨message, resolved, permits_of_shows_walkWithin strict _ _ _ _ _ shows⟩

/-- A type that leads back to itself and has two plain fields of one name. -/
def chain : Registry :=
  .ofList [.ofDeclarations "chain.Link"
    [.field (.message "next" ".chain.Link"), .field (.enumeration "next"),
      .field (.repeated (.message "side" "chain.Link")), .field (.secret (.scalar "token")),
      .oneof "pick" [.scalar "open", .secret (.scalar "shut")]]]

/-- In a message of this type, an open choice below a list shows, and its path is permitted. -/
theorem permits_open_choice :
    ((Walker.ofConfig chain {} .empty).walkRoot ".chain.Link"
      (.object [("next", .object [("side", .list [.object [("token", .bool false)],
        .object [("pick", .object [("open", .bool true)])]])]), ("stray", .string "s")])).value.Shows
      [.key "next", .key "side", .index 1, .key "pick", .key "open"] (.bool true) ∧
    ∃ message, chain.get? ".chain.Link" = some message ∧
      chain.Permits ⟨none, .empty⟩ message
        [.key "next", .key "side", .index 1, .key "pick", .key "open"] := by
  have walked : ((Walker.ofConfig chain {} .empty).walkRoot ".chain.Link"
      (.object [("next", .object [("side", .list [.object [("token", .bool false)],
        .object [("pick", .object [("open", .bool true)])]])]), ("stray", .string "s")])).value =
      .object [("next", .object [("side", .list [.object [("token", .stripped)],
        .object [("pick", .object [("open", .bool true)])]])])] := by decide
  have shows : Shows (.object [("next", .object [("side", .list [.object [("token", .stripped)],
        .object [("pick", .object [("open", .bool true)])]])])])
      [.key "next", .key "side", .index 1, .key "pick", .key "open"] (.bool true) :=
    .member (.head _) (.member (.head _) (.item rfl (.member (.head _) (.member (.head _)
      (.leaf rfl)))))
  rw [← walked] at shows
  exact ⟨shows, permits_of_shows_walkRoot chain {} .empty ".chain.Link" _ rfl (by decide) shows⟩

end Walker

end Redaction

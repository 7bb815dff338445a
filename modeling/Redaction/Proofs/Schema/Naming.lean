import Redaction.Proofs.Walk.Pruning

/-!
# What names of types mean

A leading dot is taken off a name when a type is declared, when a field refers to a type and again
when a type is looked up. So a name means the type that bears it exactly if it keeps no dot after
the first one has been taken off. Among such names, the types that a walk enters are those that the
search through the types follows, and a type is cleared because of its own fields and no other's.
-/

namespace Redaction

open Relation

namespace Schema.Registry

variable {registry larger : Registry} {policy : Policy} {message type : Message} {field : Field}

/-- Taking off a leading dot a second time does something only if the name keeps one. -/
theorem withoutDot_eq_self_iff {name : String} : withoutDot name = name ↔ ¬ Dotted name := by
  refine ⟨fun same dotted => ?_, withoutDot_eq_self⟩
  obtain ⟨rest, start⟩ := List.head?_eq_some_iff.mp dotted
  have shorter : withoutDot name = String.ofList rest := by
    rw [withoutDot, start]
    rfl
  rw [← same, shorter, String.toList_ofList] at start
  exact List.cons_ne_self _ _ start.symm

/-- The types of a registry stay when more are added. -/
theorem mem_foldl_insert (later : List Message) (member : message ∈ registry.messages) :
    message ∈ (later.foldl insert registry).messages := by
  induction later generalizing registry with
  | nil => exact member
  | cons next rest ih =>
    refine ih ?_
    rw [insert]
    cases added : registry.insert? next with
    | none => exact member
    | some larger =>
      rw [Option.getD_some, (insert?_eq_some_iff.mp added).2]
      exact List.mem_append_left _ member

/-- A type that has been added belongs to the registry. -/
theorem mem_of_insert? (added : registry.insert? message = some larger) :
    message ∈ larger.messages := by
  rw [(insert?_eq_some_iff.mp added).2]
  exact List.mem_append_right _ (List.mem_singleton.mpr rfl)

/-- The name of a type means the type exactly if it keeps no dot. -/
theorem get?_name_iff (member : message ∈ registry.messages) :
    registry.get? message.name = some message ↔ ¬ Dotted message.name := by
  rw [get?, find?_eq_some_iff, and_iff_right member, ← withoutDot_eq_self_iff, eq_comm]

/-- A walk enters the type that the search through the types follows. -/
theorem nested?_eq_find? {typeName : String} (refers : field.typeName? = some typeName)
    (plain : ¬ Dotted typeName) : registry.nested? field = registry.find? typeName := by
  rw [nested?, refers, Option.bind_some, get?, withoutDot_eq_self plain]

/-- A type of the messages in a field of another type. -/
def Follows (registry : Registry) (type next : Message) : Prop :=
  ∃ field ∈ type.fields, registry.nested? field = some next

/-- Whether no field of a type is secret or refers to a missing type. -/
def Spotless (registry : Registry) (policy : Policy) (type : Message) : Prop :=
  ∀ field ∈ type.fields, policy.isSensitive field = false ∧
    ∀ typeName, field.typeName? = some typeName → (registry.nested? field).isSome

/-- The types that a walk enters inside a message of a harmless type are harmless. -/
theorem Harmless.follows (undotted : registry.Undotted) (member : message ∈ registry.messages)
    (harmless : registry.Harmless policy message.name)
    (path : ReflTransGen registry.Follows message type) :
    type ∈ registry.messages ∧ registry.Harmless policy type.name := by
  induction path with
  | refl => exact ⟨member, harmless⟩
  | tail _ step ih =>
    obtain ⟨field, declared, resolved⟩ := step
    obtain ⟨typeName, refers, _⟩ := Option.bind_eq_some_iff.mp resolved
    obtain ⟨nested, same, inner⟩ := ih.2.nested undotted ih.1 declared refers
    obtain rfl := Option.some.inj (resolved.symm.trans same)
    exact ⟨mem_of_nested?_eq_some resolved, inner⟩

/-- If all types are spotless that a walk enters inside a message, the search follows no other. -/
theorem exists_follows_of_leadsTo (undotted : registry.Undotted)
    (member : message ∈ registry.messages)
    (spotless : ∀ type, ReflTransGen registry.Follows message type → registry.Spotless policy type)
    {target : String} (path : registry.LeadsTo message.name target) :
    ∃ type, registry.find? target = some type ∧ ReflTransGen registry.Follows message type := by
  induction path with
  | refl => exact ⟨message, find?_eq_some_iff.mpr ⟨member, rfl⟩, .refl⟩
  | tail _ step ih =>
    obtain ⟨type, found, entered⟩ := ih
    obtain ⟨other, same, referred⟩ := step
    obtain rfl := Option.some.inj (found.symm.trans same)
    obtain ⟨field, declared, refers⟩ := List.mem_filterMap.mp referred
    obtain ⟨next, resolved⟩ :=
      Option.isSome_iff_exists.mp ((spotless type entered field declared).2 _ refers)
    have plain := undotted.typeName type (find?_eq_some_iff.mp found).1 field declared _ refers
    exact ⟨next, (nested?_eq_find? refers plain).symm.trans resolved,
      entered.tail ⟨field, declared, resolved⟩⟩

/-- A type is harmless exactly if all types are spotless that a walk enters inside its messages. -/
theorem harmless_iff_spotless (undotted : registry.Undotted)
    (member : message ∈ registry.messages) :
    registry.Harmless policy message.name ↔
      ∀ type, ReflTransGen registry.Follows message type → registry.Spotless policy type := by
  constructor
  · intro harmless type path field declared
    obtain ⟨known, inner⟩ := harmless.follows undotted member path
    refine ⟨inner.visible known field declared, fun typeName refers => ?_⟩
    obtain ⟨next, resolved, _⟩ := inner.nested undotted known declared refers
    rw [resolved]
    rfl
  · intro spotless target path
    obtain ⟨type, found, entered⟩ := exists_follows_of_leadsTo undotted member spotless path
    exact ⟨type, found, fun field declared => (spotless type entered field declared).1⟩

/-- A type whose name keeps no dot is cleared exactly if it is harmless. -/
theorem mem_cleared_iff (member : type ∈ registry.messages) (plain : ¬ Dotted type.name) :
    type.name ∈ registry.cleared policy ↔ registry.Harmless policy type.name := by
  have means := (get?_name_iff member).mpr plain
  have listed : type.name ∈ registry.names := List.mem_map.mpr ⟨type, member, rfl⟩
  simp only [cleared, List.mem_filter, listed, true_and, Bool.not_eq_true',
    mayContainSensitive_eq_false_iff, means, Option.some.injEq, exists_eq_left']

/-- Messages of a type whose name keeps no dot are left alone exactly if unknown data is kept and
the type is harmless. -/
theorem skips_ofConfig_iff (config : Config) (additional : AdditionalNames)
    (member : type ∈ registry.messages) (plain : ¬ Dotted type.name) :
    (Walker.ofConfig registry config additional).skips type = true ↔
      config.unknownFields = .keep ∧
        registry.Harmless ⟨config.secretSuffix, additional⟩ type.name := by
  rw [Walker.skips, List.contains_iff_mem, Walker.ofConfig]
  dsimp only
  split
  · next keeps => rw [mem_cleared_iff member plain, and_iff_right keeps]
  · next removes => simp only [List.not_mem_nil, removes, false_and]

/-- A type that is added is known by its name exactly if the name keeps no dot, and stays so
whatever is added before or after. A field leads a walk to the type that the search through the
types follows, if its reference keeps no dot. If no name keeps a dot, messages are left alone
exactly if unknown data is kept and all types are spotless that a walk would enter inside them. -/
theorem name_means_type (earlier later : List Message)
    (added : (ofList earlier).insert? message = some larger) :
    let registry := later.foldl insert larger
    (¬ Dotted message.name → larger.contains message.name = true) ∧
    (registry.get? message.name = some message ↔ ¬ Dotted message.name) ∧
    (∀ type ∈ registry.messages, ∀ field ∈ type.fields, ∀ typeName,
      field.typeName? = some typeName → ¬ Dotted typeName →
        registry.nested? field = registry.find? typeName) ∧
    (∀ type ∈ registry.messages, ¬ Dotted type.name → ∀ config additional,
      (Walker.ofConfig registry config additional).skips type = true ↔
        config.unknownFields = .keep ∧
          registry.Harmless ⟨config.secretSuffix, additional⟩ type.name) ∧
    (registry.Undotted → ∀ type ∈ registry.messages, ∀ config additional,
      (Walker.ofConfig registry config additional).skips type = true ↔
        config.unknownFields = .keep ∧ ∀ next, ReflTransGen registry.Follows type next →
          registry.Spotless ⟨config.secretSuffix, additional⟩ next) := by
  intro registry
  have member : message ∈ larger.messages := mem_of_insert? added
  refine ⟨fun plain => ?_, get?_name_iff (mem_foldl_insert later member), ?_, ?_, ?_⟩
  · rw [contains, withoutDot_eq_self plain, List.contains_iff_mem]
    exact List.mem_map.mpr ⟨message, member, rfl⟩
  · intro type _ field _ typeName refers plain
    exact nested?_eq_find? refers plain
  · intro type known plain config additional
    exact skips_ofConfig_iff config additional known plain
  · intro undotted type known config additional
    rw [skips_ofConfig_iff config additional known (undotted.name type known),
      harmless_iff_spotless undotted known]

/-- The types of trees are known by their names, and messages of the one without secrets are left
alone. -/
theorem leaf_means_type :
    (ofList [Walker.branch, Walker.leaf]).contains "tree.Leaf" = true ∧
      (ofList [Walker.branch, Walker.leaf]).get? "tree.Leaf" = some Walker.leaf ∧
      (Walker.ofConfig (ofList [Walker.branch, Walker.leaf]) { unknownFields := .keep }
        .empty).skips Walker.leaf = true := by
  have added : (ofList [Walker.branch]).insert? Walker.leaf =
      some (ofList [Walker.branch, Walker.leaf]) := by decide
  obtain ⟨known, means, _, skips, _⟩ := name_means_type [Walker.branch] [] added
  have harmless : (ofList [Walker.branch, Walker.leaf]).Harmless ⟨none, .empty⟩ "tree.Leaf" :=
    harmless_of_closed
      (List.forall_mem_singleton.mpr ⟨Walker.leaf, by decide, by decide, by decide⟩)
      (List.mem_singleton.mpr rfl)
  exact ⟨known (by decide), means.mpr (by decide),
    (skips Walker.leaf (by decide) (by decide) { unknownFields := .keep } .empty).mpr
      ⟨rfl, harmless⟩⟩

/-- A type with a secret whose name keeps a dot. -/
def login : Message := .ofDeclarations "..v1.Login" [.field (.secret (.scalar "password"))]

/-- A type without secrets of the same name without the dot. -/
def guest : Message := .ofDeclarations "v1.Login" [.field (.scalar "user")]

/-- A type whose name keeps a dot is added, but not known by its name. As soon as there is a type of
the name without the dot, the name means this one; and because that type holds no secret, the
secrets of the first one stay where unknown data is kept. -/
theorem login_means_guest :
    let registry := ofList [login, guest]
    let walker := Walker.ofConfig registry { unknownFields := .keep } .empty
    let tree : Tree := .object [("password", .string "hunter2")]
    empty.insert? login = some (ofList [login]) ∧ (ofList [login]).contains login.name = false ∧
      login ∈ registry.messages ∧ registry.get? login.name = some guest ∧
      registry.get? "..v1.Login" = some login ∧ walker.walkRoot "..v1.Login" tree = pure tree := by
  intro registry walker tree
  have known : walker.registry.get? "..v1.Login" = some login := by decide
  have harmless : registry.Harmless walker.policy guest.name :=
    harmless_of_closed (List.forall_mem_singleton.mpr ⟨guest, by decide, by decide, by decide⟩)
      (List.mem_singleton.mpr rfl)
  have clear : registry.mayContainSensitive walker.policy login.name = false :=
    mayContainSensitive_eq_false_iff.mpr ⟨guest, by decide, harmless⟩
  have cleared : login.name ∈ walker.cleared :=
    List.mem_filter.mpr ⟨by decide, congrArg Bool.not clear⟩
  have skipped : walker.skips login = true := List.contains_iff_mem.mpr cleared
  refine ⟨by decide, by decide, by decide, by decide, known, ?_⟩
  rw [Walker.walkRoot, known]
  exact if_pos skipped

end Schema.Registry

end Redaction

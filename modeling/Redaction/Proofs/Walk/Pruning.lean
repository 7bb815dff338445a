import Redaction.Proofs.Walk.LeftAlone

/-!
# Leaving messages alone

A walker that keeps unknown data leaves messages of cleared types alone. The thorough walker does
not. Where the thorough walker meets no problem inside such messages, both walks are the same, log
included; if values that do not fit may pass, both leave the same tree in any case.
-/

namespace Redaction

open Schema Redaction.Tree

namespace Walker

variable {walker : Walker} {enter : Enter} {message : Message}

/-- The thorough walker enters the messages of every type. -/
theorem walkField_thorough (walker : Walker) (enter : Enter) (message : Message) (field : Field)
    (value : Tree) :
    walker.thorough.walkField enter message field value =
      match walker.registry.outlook walker.policy field with
      | .secret => pure .stripped
      | .scalar => pure value
      | .missing typeName => walker.fallBack (.unknownType typeName) value
      | .message nested => walker.thorough.walkNested enter message field nested value :=
  walkField_eq _ _ _ _ _

/-- The thorough walker enters the root whatever its type. -/
theorem walkRoot_thorough (walker : Walker) (reference : String) (tree : Tree) :
    walker.thorough.walkRoot reference tree =
      match walker.registry.get? reference with
      | none => walker.fallBack (.unknownType reference) tree
      | some message => walker.thorough.walkMessage message none tree := rfl

/-- What is missed in a message inside a field. -/
abbrev Misses := Message → Field → Tree → List Problem

/-- The problems that the thorough walk meets in the value of a field, as far as the walker leaves
messages alone there. -/
def missedInField (walker : Walker) (enter : Enter) (misses : Misses) (message : Message)
    (field : Field) (value : Tree) : List Problem :=
  match walker.registry.outlook walker.policy field with
  | .message nested =>
    if walker.skips nested then (walker.thorough.walkField enter message field value).problems
    else (value.parts field.cardinality).flatMap (misses nested field)
  | _ => []

/-- The problems of this kind in the value of a group. -/
def missedInGroup (walker : Walker) (enter : Enter) (misses : Misses) (message : Message)
    (group : String) (value : Tree) : List Problem :=
  match value with
  | .object [(active, inner)] =>
    match (message.alternatives group).find? fun alternative => alternative.name == active with
    | some field => walker.missedInField enter misses message field inner
    | none => []
  | _ => []

/-- The problems of this kind in the values of plain fields, as the thorough walk finds them. -/
def missedInPlainFields (walker : Walker) (enter : Enter) (misses : Misses) (message : Message) :
    List Field → List (String × Tree) → List Problem
  | [], _ => []
  | field :: rest, members =>
    Members.gather field.name (walker.missedInField enter misses message field) members ++
    walker.missedInPlainFields enter misses message rest
      (Walked.atKey field.name
        (fun value => some <$> walker.thorough.walkField enter message field value) members).value

/-- The problems of this kind in the values of groups, as the thorough walk finds them. -/
def missedInGroups (walker : Walker) (enter : Enter) (misses : Misses) (message : Message) :
    List String → List (String × Tree) → List Problem
  | [], _ => []
  | group :: rest, members =>
    Members.gather group (walker.missedInGroup enter misses message group) members ++
    walker.missedInGroups enter misses message rest
      (Walked.atKey group (walker.thorough.walkGroup enter message group) members).value

/-- The problems of this kind among the members of a message. -/
def missedInMembers (walker : Walker) (enter : Enter) (misses : Misses) (message : Message)
    (members : List (String × Tree)) : List Problem :=
  let settled := walker.thorough.settleUnknown message members
  walker.missedInPlainFields enter misses message message.plainFields settled ++
    walker.missedInGroups enter misses message message.groups
      (walker.thorough.walkPlainFields enter message message.plainFields settled).value

/-- The problems of this kind in a message within a bound. -/
def missedWithin (walker : Walker) : Nat → Message → Tree → List Problem
  | bound + 1, message, .object members =>
    walker.missedInMembers
      (fun nested field value => walker.thorough.walkWithin bound nested (some field) value)
      (fun nested _ value => walker.missedWithin bound nested value) message members
  | _, _, _ => []

/-- The problems that the thorough walk of a tree meets at or below the places that the walker
leaves alone. -/
def missed (walker : Walker) (reference : String) (tree : Tree) : List Problem :=
  match walker.registry.get? reference with
  | none => []
  | some message =>
    if walker.skips message then (walker.thorough.walkMessage message none tree).problems
    else walker.missedWithin tree.depth message tree

section Missed

variable {misses : Misses} {thorough : Enter}
  (each : ∀ nested field part,
    (misses nested field part).Sublist (thorough nested field part).problems)

include each

/-- What is missed in the value of a field, the thorough walk meets there. -/
theorem missedInField_sublist (field : Field) (value : Tree) :
    (walker.missedInField thorough misses message field value).Sublist
      (walker.thorough.walkField thorough message field value).problems := by
  unfold missedInField
  rw [walkField_thorough]
  cases walker.registry.outlook walker.policy field with
  | message nested =>
    dsimp only
    split
    · exact .refl _
    · unfold walkNested
      cases field.cardinality with
      | singular => simpa [parts] using each nested field value
      | repeated =>
        dsimp only
        split
        · rw [Walked.problems_map, Walked.problems_items]
          exact .flatMap_right _ fun item _ => each nested field item
        · next unlisted =>
          cases value with
          | list items => exact absurd rfl (unlisted items)
          | _ => exact List.nil_sublist _
      | map =>
        dsimp only
        split
        · rw [Walked.problems_map, Walked.problems_members, parts, List.flatMap_map]
          exact .flatMap_right _ fun member _ => each nested field member.2
        · next unmapped =>
          cases value with
          | object members => exact absurd rfl (unmapped members)
          | _ => exact List.nil_sublist _
  | _ => exact List.nil_sublist _

/-- What is missed in the value of a group, the thorough walk meets there. -/
theorem missedInGroup_sublist (group : String) (value : Tree) :
    (walker.missedInGroup thorough misses message group value).Sublist
      (walker.thorough.walkGroup thorough message group value).problems := by
  match value with
  | .object [(active, inner)] =>
    unfold walkGroup missedInGroup
    dsimp only
    cases (message.alternatives group).find? fun alternative => alternative.name == active with
    | some field =>
      rw [Walked.problems_bind, Walked.problems_pure, List.append_nil]
      exact missedInField_sublist each field inner
    | none => exact List.nil_sublist _
  | .null | .stripped | .bool _ | .number _ | .string _ | .list _ | .object []
  | .object (_ :: _ :: _) => exact List.nil_sublist _

/-- What is missed in plain fields, the thorough walk meets there. -/
theorem missedInPlainFields_sublist (fields : List Field) (members : List (String × Tree)) :
    (walker.missedInPlainFields thorough misses message fields members).Sublist
      (walker.thorough.walkPlainFields thorough message fields members).problems := by
  induction fields generalizing members with
  | nil => exact List.nil_sublist _
  | cons field rest ih =>
    rw [walkPlainFields, Walked.problems_bind, Walked.problems_atKey]
    refine List.Sublist.append (Members.gather_sublist members fun value => ?_) (ih _)
    rw [Walked.problems_map]
    exact missedInField_sublist each field value

/-- What is missed in groups, the thorough walk meets there. -/
theorem missedInGroups_sublist (groups : List String) (members : List (String × Tree)) :
    (walker.missedInGroups thorough misses message groups members).Sublist
      (walker.thorough.walkGroups thorough message groups members).problems := by
  induction groups generalizing members with
  | nil => exact List.nil_sublist _
  | cons group rest ih =>
    rw [walkGroups, Walked.problems_bind, Walked.problems_atKey]
    exact (Members.gather_sublist members fun value =>
      missedInGroup_sublist each group value).append (ih _)

/-- What is missed among the members of a message, the thorough walk meets there. -/
theorem missedInMembers_sublist (members : List (String × Tree)) :
    (walker.missedInMembers thorough misses message members).Sublist
      (walker.thorough.walkMembers thorough message members).problems :=
  (missedInPlainFields_sublist each _ _).append (missedInGroups_sublist each _ _)

end Missed

/-- What is missed in a message within a bound, the thorough walk meets there. -/
theorem missedWithin_sublist (bound : Nat) (message : Message) (owner : Option Field)
    (value : Tree) :
    (walker.missedWithin bound message value).Sublist
      (walker.thorough.walkWithin bound message owner value).problems := by
  induction bound generalizing message owner value with
  | zero => exact List.nil_sublist _
  | succ bound ih =>
    cases value with
    | object members =>
      rw [walkWithin, missedWithin, Walked.problems_map]
      exact missedInMembers_sublist (fun nested field part => ih nested (some field) part) members
    | _ => exact List.nil_sublist _

/-- What is missed is met by the thorough walk. -/
theorem missed_sublist (walker : Walker) (reference : String) (tree : Tree) :
    (walker.missed reference tree).Sublist
      (walker.thorough.walkRoot reference tree).problems := by
  rw [walkRoot_thorough, missed]
  cases walker.registry.get? reference with
  | none => exact List.nil_sublist _
  | some message =>
    dsimp only
    split
    · exact .refl _
    · exact missedWithin_sublist tree.depth message none tree

section Agreement

variable {misses : Misses} {thorough : Enter} {bound : Nat}
  (skipped : ∀ nested field part, nested ∈ walker.registry.messages → walker.skips nested = true →
    part.depth ≤ bound → (thorough nested field part).LeavesAlone walker.Lenient part)
  (agrees : ∀ nested field part, nested ∈ walker.registry.messages → part.depth ≤ bound →
    Walked.Agrees walker.Lenient (misses nested field part) (enter nested field part)
      (thorough nested field part))

include agrees

/-- The walks of the messages in a field agree if those of a single message do. -/
theorem agrees_walkNested {field : Field} {nested : Message}
    (member : nested ∈ walker.registry.messages) {value : Tree} (low : value.depth ≤ bound) :
    Walked.Agrees walker.Lenient ((value.parts field.cardinality).flatMap (misses nested field))
      (walker.walkNested enter message field nested value)
      (walker.thorough.walkNested thorough message field nested value) := by
  have each : ∀ part ∈ value.parts field.cardinality,
      Walked.Agrees walker.Lenient (misses nested field part) (enter nested field part)
        (thorough nested field part) :=
    fun part inside => agrees nested field part member
      (Nat.le_trans (depth_le_of_mem_parts inside) low)
  unfold walkNested
  cases h : field.cardinality with
  | singular =>
    rw [h] at each
    have single := each value (List.mem_singleton.mpr rfl)
    simpa only [parts, List.flatMap_singleton] using single
  | repeated =>
    rw [h] at each
    dsimp only
    split
    · exact (Walked.Agrees.items each).map Tree.list
    · exact .refl _
  | map =>
    rw [h] at each
    dsimp only
    split
    · next members =>
      have inside := Walked.Agrees.members fun member present =>
        each member.2 (List.mem_map.mpr ⟨member, present, rfl⟩)
      rw [parts, List.flatMap_map]
      exact inside.map Tree.object
    · exact .refl _

include skipped

/-- The walks of the value of a field agree. -/
theorem agrees_walkField {field : Field} {value : Tree} (low : value.depth ≤ bound) :
    Walked.Agrees walker.Lenient (walker.missedInField thorough misses message field value)
      (walker.walkField enter message field value)
      (walker.thorough.walkField thorough message field value) := by
  unfold missedInField
  rw [walkField_thorough, walkField_eq walker]
  cases h : walker.registry.outlook walker.policy field with
  | secret => exact .refl _
  | scalar => exact .refl _
  | missing typeName => exact .refl _
  | message nested =>
    have member := Registry.mem_of_nested?_eq_some (Registry.outlook_eq_message_iff.mp h).2
    dsimp only
    split
    · next skips =>
      exact .of_leavesAlone (leavesAlone_walkNested fun part inside =>
        skipped nested field part member skips
          (Nat.le_trans (depth_le_of_mem_parts inside) low))
    · exact agrees_walkNested agrees member low

/-- The walks of the value of a group agree. -/
theorem agrees_walkGroup (group : String) {value : Tree} (low : value.depth ≤ bound) :
    Walked.Agrees walker.Lenient (walker.missedInGroup thorough misses message group value)
      (walker.walkGroup enter message group value)
      (walker.thorough.walkGroup thorough message group value) := by
  match value with
  | .object [(active, inner)] =>
    simp only [depth, membersDepth] at low
    unfold walkGroup missedInGroup
    dsimp only
    cases (message.alternatives group).find? fun alternative => alternative.name == active with
    | some field => exact (agrees_walkField skipped agrees (by omega)).bind_pure
    | none => exact .refl _
  | .null | .stripped | .bool _ | .number _ | .string _ | .list _ | .object []
  | .object (_ :: _ :: _) => exact .refl _

variable (redacts : Redacts (walker.thorough.unknownFields = .drop) thorough)

include redacts

/-- The walks of plain fields agree, and the members stay within the bound. -/
theorem agrees_walkPlainFields (fields : List Field) {members : List (String × Tree)}
    (low : ∀ member ∈ members, member.2.depth ≤ bound) :
    Walked.Agrees walker.Lenient
        (walker.missedInPlainFields thorough misses message fields members)
        (walker.walkPlainFields enter message fields members)
        (walker.thorough.walkPlainFields thorough message fields members) ∧
      ∀ member ∈ (walker.thorough.walkPlainFields thorough message fields members).value,
        member.2.depth ≤ bound := by
  induction fields generalizing members with
  | nil => exact ⟨.refl _, low⟩
  | cons field rest ih =>
    obtain ⟨later, deep⟩ := ih (depth_atKey_walkField_le redacts field low)
    refine ⟨Walked.Agrees.bind (.atKey fun value present => ?_) later, deep⟩
    exact (agrees_walkField skipped agrees (low _ present)).map some

/-- The walks of groups agree. -/
theorem agrees_walkGroups (groups : List String) {members : List (String × Tree)}
    (low : ∀ member ∈ members, member.2.depth ≤ bound) :
    Walked.Agrees walker.Lenient (walker.missedInGroups thorough misses message groups members)
      (walker.walkGroups enter message groups members)
      (walker.thorough.walkGroups thorough message groups members) := by
  induction groups generalizing members with
  | nil => exact .refl _
  | cons group rest ih =>
    refine Walked.Agrees.bind (.atKey fun value present => ?_)
      (ih (depth_atKey_walkGroup_le redacts group low))
    exact agrees_walkGroup skipped agrees group (low _ present)

/-- The walks of the members of a message agree. -/
theorem agrees_walkMembers {members : List (String × Tree)}
    (low : ∀ member ∈ members, member.2.depth ≤ bound) :
    Walked.Agrees walker.Lenient (walker.missedInMembers thorough misses message members)
      (walker.walkMembers enter message members)
      (walker.thorough.walkMembers thorough message members) := by
  obtain ⟨plain, deep⟩ := agrees_walkPlainFields skipped agrees redacts message.plainFields
    (depth_settleUnknown_le low)
  exact plain.bind (agrees_walkGroups skipped agrees redacts message.groups deep)

end Agreement

/-- Whether all types whose messages are left alone are harmless. -/
def SkipsHarmless (walker : Walker) : Prop :=
  ∀ message ∈ walker.registry.messages, walker.skips message = true →
    walker.registry.Harmless walker.policy message.name

/-- Where unknown data is kept and only messages of harmless types are left alone, the walks of a
message agree. -/
theorem agrees_walkWithin (undotted : walker.registry.Undotted)
    (keeps : walker.unknownFields = .keep)
    (safe : walker.SkipsHarmless)
    (bound : Nat) (message : Message) (owner : Option Field) (value : Tree)
    (low : value.depth ≤ bound) :
    Walked.Agrees walker.Lenient (walker.missedWithin bound message value)
      (walker.walkWithin bound message owner value)
      (walker.thorough.walkWithin bound message owner value) := by
  have thoroughlyUndotted : walker.thorough.registry.Undotted := undotted
  induction bound generalizing message owner value with
  | zero =>
    cases value with
    | object members =>
      simp only [depth] at low
      omega
    | _ => exact .refl _
  | succ bound ih =>
    cases value with
    | object members =>
      simp only [depth] at low
      have skipped : ∀ nested field part, nested ∈ walker.registry.messages →
          walker.skips nested = true → part.depth ≤ bound →
          (walker.thorough.walkWithin bound nested (some field) part).LeavesAlone
            walker.Lenient part :=
        fun nested field part known skips below =>
          leavesAlone_walkWithin thoroughlyUndotted keeps bound nested (some field) part known
            (safe nested known skips) below
      rw [walkWithin, walkWithin, missedWithin]
      exact (agrees_walkMembers skipped
        (fun nested field part _ below => ih nested (some field) part below)
        (walker.thorough.redacts_walkWithin bound)
        (membersDepth_le_iff.mp (by omega))).map Tree.object
    | _ => exact .refl _

/-- Where unknown data is kept and only messages of harmless types are left alone, the walks of a
tree agree. -/
theorem agrees_walkRoot (undotted : walker.registry.Undotted)
    (keeps : walker.unknownFields = .keep)
    (safe : walker.SkipsHarmless)
    (reference : String) (tree : Tree) :
    Walked.Agrees walker.Lenient (walker.missed reference tree) (walker.walkRoot reference tree)
      (walker.thorough.walkRoot reference tree) := by
  rw [walkRoot_thorough, walkRoot, missed]
  cases found : walker.registry.get? reference with
  | none => exact .refl _
  | some message =>
    have member := Registry.mem_of_get?_eq_some found
    dsimp only
    split
    · next skips =>
      have thoroughlyUndotted : walker.thorough.registry.Undotted := undotted
      have alone : (walker.thorough.walkMessage message none tree).LeavesAlone
          walker.Lenient tree :=
        leavesAlone_walkWithin thoroughlyUndotted keeps tree.depth message none tree member
          (safe message member skips) (Nat.le_refl _)
      exact .of_leavesAlone alone
    · exact agrees_walkWithin undotted keeps safe tree.depth message none tree (Nat.le_refl _)

/-- The walker of a configuration leaves only messages of harmless types alone. -/
theorem skipsHarmless_ofConfig {registry : Registry} (config : Config)
    (additional : AdditionalNames) (undotted : registry.Undotted) :
    (ofConfig registry config additional).SkipsHarmless := by
  intro message member skips
  have listed := List.contains_iff_mem.mp skips
  simp only [ofConfig] at listed
  split at listed
  · exact Registry.harmless_of_mem_cleared undotted member listed
  · cases listed

/-- Leaving messages of cleared types alone is sound. Where values that do not fit may pass, the
walker leaves the same tree as the thorough one. Where they are taken out, both walks are the same
unless the thorough one meets a problem at or below a place that is left alone. In any case nothing
secret is left: no field is secret in the types that are left alone and those to which they lead,
and a thorough walk that takes out nothing but secrets changes nothing in their messages. -/
theorem walkRoot_agrees_thorough (registry : Registry) (config : Config)
    (additional : AdditionalNames) (undotted : registry.Undotted)
    (keeps : config.unknownFields = .keep) (reference : String) (tree : Tree) :
    let walker := ofConfig registry config additional
    (config.fallback = .passthrough →
      (walker.walkRoot reference tree).value = (walker.thorough.walkRoot reference tree).value) ∧
    (config.fallback = .strip → walker.missed reference tree = [] →
      walker.walkRoot reference tree = walker.thorough.walkRoot reference tree) ∧
    ∀ message ∈ registry.messages, walker.skips message = true →
      registry.Harmless walker.policy message.name ∧
      ∀ owner value, (walkMessage { walker.thorough with fallback := .passthrough } message owner
        value).value = value := by
  intro walker
  have safe : walker.SkipsHarmless := skipsHarmless_ofConfig config additional undotted
  have sameTypes : walker.registry.Undotted := undotted
  have agrees := agrees_walkRoot sameTypes keeps safe reference tree
  refine ⟨fun passes => agrees.value (.inl passes), fun _ clean => ?_,
    fun message member skips => ?_⟩
  · exact Walked.ext (agrees.value (.inr clean)) (agrees.problems clean)
  · have harmless := safe message member skips
    refine ⟨harmless, fun owner value => ?_⟩
    have passing : Registry.Undotted
        (Walker.registry { walker.thorough with fallback := .passthrough }) := undotted
    exact leavesAlone_walkWithin passing keeps value.depth message owner value member harmless
      (Nat.le_refl _) (.inl rfl)

/-- A type without secrets that leads back to itself. -/
def leaf : Message :=
  .ofDeclarations "tree.Leaf"
    [.field (.scalar "name"), .field (.repeated (.message "twigs" ".tree.Leaf"))]

/-- A type that holds a secret and leads to one that holds none. -/
def branch : Message :=
  .ofDeclarations "tree.Branch"
    [.field (.message "leaf" "tree.Leaf"), .field (.secret (.scalar "token"))]

/-- With these types, the messages without secrets are left alone, and both walks are the same. -/
theorem branch_agrees_thorough :
    let walker := ofConfig (.ofList [branch, leaf]) { unknownFields := .keep } .empty
    let tree : Tree := .object [("leaf", .object [("stray", .bool true),
      ("twigs", .list [.object [("name", .string "n")]])]), ("token", .string "s")]
    walker.cleared = ["tree.Leaf"] ∧ walker.missed "tree.Branch" tree = [] ∧
      walker.walkRoot "tree.Branch" tree = walker.thorough.walkRoot "tree.Branch" tree := by
  intro walker tree
  have harmless : walker.registry.Harmless walker.policy leaf.name :=
    Registry.harmless_of_closed (List.forall_mem_singleton.mpr
      ⟨leaf, by decide, by decide, by decide⟩) (List.mem_singleton.mpr rfl)
  have clear : walker.registry.mayContainSensitive walker.policy "tree.Leaf" = false :=
    Registry.mayContainSensitive_eq_false_iff.mpr ⟨leaf, by decide, harmless⟩
  have secret : walker.registry.mayContainSensitive walker.policy "tree.Branch" = true := by
    rw [← Bool.not_eq_false, Registry.mayContainSensitive_eq_false_iff]
    rintro ⟨message, found, harmless⟩
    have known : walker.registry.get? "tree.Branch" = some branch := by decide
    obtain rfl := Option.some.inj (known.symm.trans found)
    have visible := harmless.visible (Registry.mem_of_get?_eq_some found)
    exact absurd (visible (.secret (.scalar "token")) (by decide)) (by decide)
  have cleared : walker.cleared = ["tree.Leaf"] := by
    have names : walker.registry.names = ["tree.Branch", "tree.Leaf"] := by decide
    change walker.registry.cleared walker.policy = _
    rw [Registry.cleared, names, List.filter_cons, secret, List.filter_cons, clear]
    rfl
  have same : walker = { walker with cleared := ["tree.Leaf"] } := by rw [← cleared]
  have missed : walker.missed "tree.Branch" tree = [] := by
    rw [same]
    decide
  exact ⟨cleared, missed, (walkRoot_agrees_thorough (.ofList [branch, leaf])
    { unknownFields := .keep } .empty (by decide) rfl "tree.Branch" tree).2.1 rfl missed⟩

end Walker

end Redaction

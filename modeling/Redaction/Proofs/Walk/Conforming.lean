import Redaction.Proofs.Schema.Conforming
import Redaction.Proofs.Walk.Pointwise
import Redaction.Proofs.Walk.Pruning

/-!
# Walks of conforming trees

In a tree that conforms to its type a walk meets no problem and takes out the secrets, nothing else.
It does so whatever is done with unknown data and with values that do not fit, and whether or not
messages of harmless types are left alone.
-/

namespace Redaction

open Schema Redaction.Tree

namespace Walked

/-- A walk of items that meets no problem in any of them meets none. -/
theorem items_eq_pure {step : Tree → Walked Tree} {change : Tree → Tree} {list : List Tree}
    (each : ∀ item ∈ list, step item = pure (change item)) :
    items step list = pure (list.map change) := by
  induction list with
  | nil => rfl
  | cons item rest ih =>
    rw [items, each item List.mem_cons_self,
      ih fun other member => each other (List.mem_cons_of_mem _ member)]
    rfl

/-- A walk of values that meets no problem in any of them meets none. -/
theorem members_eq_pure {step : Tree → Walked Tree} {change : Tree → Tree}
    {list : List (String × Tree)}
    (each : ∀ member ∈ list, step member.2 = pure (change member.2)) :
    members step list = pure (Members.mapValues change list) := by
  induction list with
  | nil => rfl
  | cons member rest ih =>
    obtain ⟨key, value⟩ := member
    rw [members, each (key, value) List.mem_cons_self,
      ih fun other member => each other (List.mem_cons_of_mem _ member)]
    rfl

end Walked

namespace Walker

variable {walker : Walker} {enter : Enter} {message : Message}

section Step

variable {bound : Nat}
  (enters : ∀ nested field part, nested ∈ walker.registry.messages →
    walker.registry.Conforms walker.policy (.message nested) part → part.depth ≤ bound →
    enter nested field part = pure (walker.registry.censor walker.policy (.message nested) part))

include enters

/-- The messages in a field are censored if each of them is. -/
theorem walkNested_eq_censor {field : Field} {nested : Message} {value : Tree}
    (member : nested ∈ walker.registry.messages) (low : value.depth ≤ bound)
    (conforms : walker.registry.Conforms walker.policy (.ofMessages nested field.cardinality)
      value) :
    walker.walkNested enter message field nested value =
      pure (walker.registry.censor walker.policy (.ofMessages nested field.cardinality) value) := by
  have each : ∀ part ∈ value.parts field.cardinality,
      walker.registry.Conforms walker.policy (.message nested) part →
        enter nested field part =
          pure (walker.registry.censor walker.policy (.message nested) part) :=
    fun part inside fits => enters nested field part member fits
      (Nat.le_trans (depth_le_of_mem_parts inside) low)
  unfold walkNested
  cases h : field.cardinality with
  | singular =>
    rw [h] at conforms each
    exact each value (List.mem_singleton.mpr rfl) conforms
  | repeated =>
    rw [h] at conforms each
    cases conforms with
    | object needed => cases needed
    | @list _ items fits =>
      have inside : ∀ item ∈ items, enter nested field item =
          pure (walker.registry.censor walker.policy (.message nested) item) :=
        fun item present => each item present (fits item present)
      dsimp only
      rw [Walked.items_eq_pure inside, Place.ofMessages, Registry.censor_list]
      rfl
  | map =>
    rw [h] at conforms each
    cases conforms with
    | @object _ members _ fits =>
      have inside : ∀ entry ∈ members, enter nested field entry.2 =
          pure (walker.registry.censor walker.policy (.message nested) entry.2) :=
        fun entry present => each entry.2 (List.mem_map_of_mem present) (fits entry present)
      dsimp only
      rw [Walked.members_eq_pure inside, Place.ofMessages, Registry.censor_map]
      rfl

variable (undotted : walker.registry.Undotted) (safe : walker.SkipsHarmless)

include undotted safe

/-- The value of a field is censored. -/
theorem walkField_eq_censor {field : Field} {value : Tree} (low : value.depth ≤ bound)
    (conforms : walker.registry.Conforms walker.policy
      (walker.registry.placeOf walker.policy field) value) :
    walker.walkField enter message field value =
      pure (walker.registry.censor walker.policy (walker.registry.placeOf walker.policy field)
        value) := by
  rw [walkField_eq]
  unfold Registry.placeOf at conforms ⊢
  cases h : walker.registry.outlook walker.policy field with
  | secret => rw [Registry.censor_secret]
  | scalar =>
    have harmless : walker.registry.HarmlessAt walker.policy .free := trivial
    rw [Registry.censor_eq_self undotted value harmless]
  | missing typeName =>
    rw [h] at conforms
    exact absurd conforms Registry.not_conforms_missing
  | message nested =>
    have member := Registry.mem_of_nested?_eq_some (Registry.outlook_eq_message_iff.mp h).2
    rw [h] at conforms
    dsimp only
    split
    · next skips =>
      rw [Registry.censor_eq_self undotted value
        (Registry.harmlessAt_ofMessages _ member (safe nested member skips))]
    · exact walkNested_eq_censor enters member low conforms

/-- The value of a group is censored. -/
theorem walkGroup_eq_censor {group : String} {value : Tree} (low : value.depth ≤ bound)
    (conforms : walker.registry.Conforms walker.policy (.group message group) value) :
    walker.walkGroup enter message group value =
      pure (some (walker.registry.censor walker.policy (.group message group) value)) := by
  cases conforms with
  | @object _ members needed fits =>
    match members with
    | [(active, inner)] =>
      have inside : walker.registry.Conforms walker.policy
          (walker.registry.under walker.policy (.group message group) active) inner :=
        fits (active, inner) (List.mem_singleton.mpr rfl)
      simp only [depth, membersDepth] at low
      rw [Registry.censor_of_ne_secret (by simp), Tree.inside, Members.rewrite_cons,
        Members.rewrite_nil]
      cases declared : message.alternative? group active with
      | none =>
        rw [Registry.under_group_of_unknown declared] at inside
        exact absurd inside Registry.not_conforms_unknown
      | some field =>
        rw [Registry.under_group_of_alternative? declared] at inside ⊢
        rw [walkGroup_of_alternative?_eq_some _ _ _ declared,
          walkField_eq_censor enters undotted safe (by omega) inside]
        rfl

/-- What becomes of a member by itself is that its value is censored. -/
theorem treat_eq_censor {key : String} {value : Tree} (low : value.depth ≤ bound)
    (conforms : walker.registry.Conforms walker.policy
      (walker.registry.under walker.policy (.message message) key) value) :
    walker.treat enter message key value = some (walker.registry.censor walker.policy
      (walker.registry.under walker.policy (.message message) key) value) := by
  unfold treat
  cases plain : message.plainField? key with
  | some field =>
    rw [Registry.under_message_of_plainField? plain] at conforms ⊢
    dsimp only
    rw [walkField_eq_censor enters undotted safe low conforms]
    rfl
  | none =>
    dsimp only
    by_cases listed : key ∈ message.groups
    · rw [Registry.under_message_of_listed plain listed] at conforms ⊢
      rw [if_pos listed, walkGroup_eq_censor enters undotted safe low conforms]
      rfl
    · rw [Registry.under_message_of_unknown plain listed] at conforms
      exact absurd conforms Registry.not_conforms_unknown

/-- The members of a message are censored. -/
theorem walkMembers_eq_censor (named : message.WellNamed) {members : List (String × Tree)}
    (low : ∀ member ∈ members, member.2.depth ≤ bound)
    (conforms : ∀ member ∈ members, walker.registry.Conforms walker.policy
      (walker.registry.under walker.policy (.message message) member.1) member.2) :
    Tree.object <$> walker.walkMembers enter message members =
      pure (walker.registry.censor walker.policy (.message message) (.object members)) := by
  refine Walked.ext ?_ ?_
  · rw [Walked.value_map, value_walkMembers_eq_treat _ _ _ named,
      Registry.censor_of_ne_secret (by simp), Walked.value_pure, Tree.inside]
    refine congrArg Tree.object (Members.rewrite_congr fun key value present => ?_)
    exact treat_eq_censor enters undotted safe (low _ present) (conforms _ present)
  · rw [Walked.problems_map, problems_walkMembers _ _ _ named.keysApart, Walked.problems_pure,
      List.append_eq_nil_iff, List.flatMap_eq_nil_iff, List.flatMap_eq_nil_iff]
    refine ⟨fun field declared => Members.gather_eq_nil fun value present => ?_,
      fun group listed => Members.gather_eq_nil fun value present => ?_⟩
    · have plain := named.plainField?_eq_some_iff.mpr ⟨declared, rfl⟩
      have inside := conforms _ present
      rw [Registry.under_message_of_plainField? plain] at inside
      rw [walkField_eq_censor enters undotted safe (low _ present) inside, Walked.problems_pure]
    · have foreign : message.plainField? group = none :=
        find?_name_eq_none_iff.mpr fun field declared same =>
          named.apart field declared (same ▸ listed)
      have inside := conforms _ present
      rw [Registry.under_message_of_listed foreign listed] at inside
      rw [walkGroup_eq_censor enters undotted safe (low _ present) inside, Walked.problems_pure]

end Step

/-- A conforming message is censored within any bound that it keeps. -/
theorem walkWithin_eq_censor (named : walker.registry.WellNamed)
    (undotted : walker.registry.Undotted) (safe : walker.SkipsHarmless) (bound : Nat)
    {message : Message} (owner : Option Field) {value : Tree}
    (member : message ∈ walker.registry.messages)
    (conforms : walker.registry.Conforms walker.policy (.message message) value)
    (low : value.depth ≤ bound) :
    walker.walkWithin bound message owner value =
      pure (walker.registry.censor walker.policy (.message message) value) := by
  induction bound generalizing message owner value with
  | zero =>
    cases conforms with
    | unset => rfl
    | object =>
      simp only [depth] at low
      omega
  | succ bound ih =>
    cases conforms with
    | unset => rfl
    | object _ each =>
      simp only [depth] at low
      rw [walkWithin]
      exact walkMembers_eq_censor
        (fun nested field part known fits below => ih (some field) known fits below)
        undotted safe (named message member) (membersDepth_le_iff.mp (by omega)) each

/-- A tree that conforms to its type is censored: the walk meets no problem. -/
theorem walkRoot_eq_censor {walker : Walker} (named : walker.registry.WellNamed)
    (undotted : walker.registry.Undotted) (safe : walker.SkipsHarmless) {reference : String}
    {message : Message} (resolved : walker.registry.get? reference = some message) {tree : Tree}
    (conforms : walker.registry.Conforms walker.policy (.message message) tree) :
    walker.walkRoot reference tree =
      pure (walker.registry.censor walker.policy (.message message) tree) := by
  have member := Registry.mem_of_get?_eq_some resolved
  rw [walkRoot, resolved]
  dsimp only
  split
  · next skips =>
    have harmless : walker.registry.HarmlessAt walker.policy (.message message) :=
      ⟨member, safe message member skips⟩
    rw [Registry.censor_eq_self undotted tree harmless]
  · exact walkWithin_eq_censor named undotted safe tree.depth none member conforms (Nat.le_refl _)

/-- In a conforming tree only secrets change, whatever the configuration. Each rule for unknown data
with each fallback, leaving messages of cleared types alone or not, leads to the tree in which the
secrets are taken out and all else is as it was, and nothing is logged. -/
theorem only_secrets_change (registry : Registry) (named : registry.WellNamed)
    (undotted : registry.Undotted) (config : Config) (additional : AdditionalNames)
    (reference : String) (message : Message) (resolved : registry.get? reference = some message)
    (tree : Tree)
    (conforms : registry.Conforms ⟨config.secretSuffix, additional⟩ (.message message) tree) :
    let walker := ofConfig registry config additional
    let censored := registry.censor ⟨config.secretSuffix, additional⟩ (.message message) tree
    walker.walkRoot reference tree = ⟨censored, []⟩ ∧
      walker.thorough.walkRoot reference tree = ⟨censored, []⟩ := by
  intro walker censored
  have safe : walker.SkipsHarmless := skipsHarmless_ofConfig config additional undotted
  have thoroughlySafe : walker.thorough.SkipsHarmless := fun _ _ skips => nomatch skips
  exact ⟨walkRoot_eq_censor named undotted safe resolved conforms,
    walkRoot_eq_censor named undotted thoroughlySafe resolved conforms⟩

/-- A type without marks. -/
def article : Message :=
  .ofDeclarations "shop.Article" [.field (.scalar "name"), .field (.scalar "token")]

/-- A type with articles in a list and in a map, a secret and a group with a secret alternative. -/
def shelf : Message :=
  .ofDeclarations "shop.Shelf"
    [.field (.repeated (.message "articles" ".shop.Article")),
      .field (.map (.message "extras" "shop.Article")), .field (.secret (.scalar "code")),
      .oneof "lock" [.scalar "open", .secret (.scalar "pin")]]

/-- With these types and `token` as an additional name, exactly the code, the token and the pin of a
shelf are taken out. -/
theorem only_secrets_change_shelf :
    let registry : Registry := .ofList [shelf, article]
    let config : Config := { unknownFields := .keep, fallback := .passthrough }
    let tree : Tree := .object [("articles", .list [.object [], .null,
      .object [("name", .list [.null]), ("token", .object [("t", .null)])]]), ("code", .bool true),
      ("extras", .object [("x", .object [])]), ("lock", .object [("pin", .string "p")])]
    registry.WellNamed ∧ registry.Undotted ∧
      registry.Conforms ⟨none, .ofList ["Token"]⟩ (.message shelf) tree ∧
      (ofConfig registry config (.ofList ["Token"])).walkRoot ".shop.Shelf" tree =
        ⟨.object [("articles", .list [.object [], .null,
          .object [("name", .list [.null]), ("token", .stripped)]]), ("code", .stripped),
          ("extras", .object [("x", .object [])]), ("lock", .object [("pin", .stripped)])], []⟩ := by
  intro registry config tree
  let policy : Policy := ⟨none, .ofList ["Token"]⟩
  have named : registry.WellNamed := by decide
  have undotted : registry.Undotted := by decide
  have onShelf : registry.under policy (.message shelf) "articles" = .list article ∧
      registry.under policy (.message shelf) "code" = .secret ∧
      registry.under policy (.message shelf) "extras" = .map article ∧
      registry.under policy (.message shelf) "lock" = .group shelf "lock" ∧
      registry.under policy (.group shelf "lock") "pin" = .secret := by decide
  have inArticle : registry.under policy (.message article) "name" = .free ∧
      registry.under policy (.message article) "token" = .secret := by decide
  have emptyArticle : registry.Conforms policy (.message article) (.object []) :=
    .object rfl (List.forall_mem_nil _)
  have fullArticle : registry.Conforms policy (.message article)
      (.object [("name", .list [.null]), ("token", .object [("t", .null)])]) := by
    refine .object rfl (List.forall_mem_cons.mpr ⟨?_, List.forall_mem_singleton.mpr ?_⟩)
    · exact inArticle.1 ▸ .free _
    · exact inArticle.2 ▸ .secret _
  have conforms : registry.Conforms policy (.message shelf) tree := by
    refine .object rfl (List.forall_mem_cons.mpr ⟨?_, List.forall_mem_cons.mpr ⟨?_,
      List.forall_mem_cons.mpr ⟨?_, List.forall_mem_singleton.mpr ?_⟩⟩⟩)
    · refine onShelf.1 ▸ .list (List.forall_mem_cons.mpr ⟨emptyArticle, ?_⟩)
      exact List.forall_mem_cons.mpr ⟨.unset _, List.forall_mem_singleton.mpr fullArticle⟩
    · exact onShelf.2.1 ▸ .secret _
    · exact onShelf.2.2.1 ▸ .object rfl (List.forall_mem_singleton.mpr emptyArticle)
    · refine onShelf.2.2.2.1 ▸ .object rfl (List.forall_mem_singleton.mpr ?_)
      exact onShelf.2.2.2.2 ▸ .secret _
  have walked := only_secrets_change registry named undotted config (.ofList ["Token"])
    ".shop.Shelf" shelf (by decide) tree conforms
  exact ⟨named, undotted, conforms, walked.1.trans (by decide)⟩

end Walker

end Redaction

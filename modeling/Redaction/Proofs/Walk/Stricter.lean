import Redaction.Proofs.Schema.Tightened
import Redaction.Proofs.Walk.Outcome

/-!
# Walks under stricter policies

Under a tightened schema a walk takes out more, and nothing shows that did not show before. At each
place the two walks come to the same verdict, unless the place has become secret or the walk under
the old rules keeps the value as it is.
-/

namespace Redaction

open Schema Redaction.Tree

namespace Walker

/-- What shows in the outcome of a walk showed in the tree. -/
theorem shows_of_shows_outcome {walker : Walker} {place : Place} {tree leaf : Tree}
    {path : List Step} (shows : (walker.outcome place tree).Shows path leaf) :
    tree.Shows path leaf := by
  induction tree using inductionHeld generalizing place path with
  | step tree ih =>
    rcases shows_outcome_iff.mp shows with ⟨_, shows⟩ | ⟨_, shows⟩
    · exact shows
    · refine shows_of_shows_inside (fun part rest held shows => ih part held shows) ?_ shows
      intro key part remaining rest held kept shows
      exact ih part held ((kept_eq_some_iff.mp kept).2 ▸ shows)

/-- Whether a walker differs from another one only in that its schema is tightened. The messages
that it leaves alone are left alone by the other one, too. -/
structure Tightened (walker strict : Walker) : Prop where
  /-- The schema is tightened. -/
  registry : Registry.Tightened walker.policy strict.policy walker.registry strict.registry
  /-- Both do the same with values that do not fit. -/
  fallback : walker.fallback = strict.fallback
  /-- Both do the same with data that the schema does not mention. -/
  unknownFields : walker.unknownFields = strict.unknownFields
  /-- What the second leaves alone is left alone by the first. -/
  cleared : ∀ name ∈ strict.cleared, name ∈ walker.cleared

namespace Tightened

variable {walker strict : Walker} (tightened : walker.Tightened strict) {place counterpart : Place}

include tightened

/-- Both do the same with a value that does not fit. -/
theorem onMisfit : walker.onMisfit = strict.onMisfit := by
  rw [Walker.onMisfit, Walker.onMisfit, tightened.fallback]

/-- Both do the same with a value that is not declared. -/
theorem onUnknown : walker.onUnknown = strict.onUnknown := by
  rw [Walker.onUnknown, Walker.onUnknown, tightened.unknownFields]

/-- Messages that are left alone under a tightened schema were left alone before. -/
theorem leaves (same : place.Tightened walker.policy strict.policy counterpart)
    (left : strict.leaves counterpart = true) : walker.leaves place = true := by
  cases same with
  | message nested | list nested | map nested =>
    have listed := tightened.cleared _ (List.contains_iff_mem.mp left)
    exact List.contains_iff_mem.mpr (nested.name ▸ listed)
  | _ => cases left

/-- A value goes under the tightened schema if it went before, unless it is secret there. -/
theorem loses (same : place.Tightened walker.policy strict.policy counterpart)
    (visible : counterpart ≠ .secret) (tree : Tree) :
    walker.loses place tree = strict.loses counterpart tree := by
  rw [Walker.loses, Walker.loses, same.stray visible, tightened.onUnknown]

/-- Where the schema describes what is inside, the verdict is the same unless the value is kept
under the old rules. -/
theorem verdict_of_framed (same : place.Tightened walker.policy strict.policy counterpart)
    (framed : place.framed = true) (still : counterpart.framed = true) (tree : Tree) :
    walker.verdict place tree = .keep ∨
      walker.verdict place tree = strict.verdict counterpart tree := by
  have visible : counterpart ≠ .secret := by
    rintro rfl
    cases still
  rw [Walker.verdict_of_framed framed, Walker.verdict_of_framed still]
  by_cases left : walker.leaves place = true
  · exact .inl (if_pos left)
  · have entered : ¬ strict.leaves counterpart = true :=
      fun also => left (tightened.leaves same also)
    right
    rw [if_neg left, if_neg entered, same.accepts visible, tightened.loses same visible,
      tightened.onMisfit]

/-- The verdict at a place is the same, unless the place has become secret or the value is kept
under the old rules. -/
theorem verdict (same : place.Tightened walker.policy strict.policy counterpart) (tree : Tree) :
    strict.verdict counterpart tree = .strip ∨ walker.verdict place tree = .keep ∨
      walker.verdict place tree = strict.verdict counterpart tree := by
  cases same with
  | secret => exact .inl rfl
  | free => exact .inr (.inl rfl)
  | missing => exact .inr (.inr tightened.onMisfit)
  | unknown => exact .inr (.inr tightened.onUnknown)
  | message nested => exact .inr (tightened.verdict_of_framed (.message nested) rfl rfl tree)
  | list nested => exact .inr (tightened.verdict_of_framed (.list nested) rfl rfl tree)
  | map nested => exact .inr (tightened.verdict_of_framed (.map nested) rfl rfl tree)
  | group nested group =>
    exact .inr (tightened.verdict_of_framed (.group nested group) rfl rfl tree)

/-- What shows under a tightened schema showed before. -/
theorem shows (same : place.Tightened walker.policy strict.policy counterpart) {tree leaf : Tree}
    {path : List Step} (shows : (strict.outcome counterpart tree).Shows path leaf) :
    (walker.outcome place tree).Shows path leaf := by
  induction tree using inductionHeld generalizing place counterpart path with
  | step tree ih =>
    rcases tightened.verdict same tree with strips | keeps | agrees
    · rcases shows_outcome_iff.mp shows with ⟨keeps, _⟩ | ⟨enters, _⟩
      · exact nomatch strips.symm.trans keeps
      · exact nomatch strips.symm.trans enters
    · exact shows_outcome_iff.mpr (.inl ⟨keeps, shows_of_shows_outcome shows⟩)
    · rcases shows_outcome_iff.mp shows with ⟨keeps, shows⟩ | ⟨enters, shows⟩
      · exact shows_outcome_iff.mpr (.inl ⟨agrees.trans keeps, shows⟩)
      · have visible : counterpart ≠ .secret := by
          rintro rfl
          cases enters
        refine shows_outcome_iff.mpr (.inr ⟨agrees.trans enters, shows.inside ?_ ?_⟩)
        · exact fun part path held shows => ih part held (same.item visible) shows
        · intro key part remaining path held kept shows
          have below := ih part held (tightened.registry.under same visible key)
            ((kept_eq_some_iff.mp kept).2 ▸ shows)
          exact ⟨_, kept_of_shows below, below⟩

end Tightened

/-- A configuration with another suffix, under a tightened schema. -/
theorem tightened_ofConfig {registry stricter : Registry} {config : Config}
    {additional more : AdditionalNames} {suffix : Option String}
    (tightened : Registry.Tightened ⟨config.secretSuffix, additional⟩ ⟨suffix, more⟩ registry
      stricter) :
    (ofConfig registry config additional).Tightened
      (ofConfig stricter { config with secretSuffix := suffix } more) where
  registry := tightened
  fallback := rfl
  unknownFields := rfl
  cleared := by
    intro name clear
    simp only [ofConfig] at clear ⊢
    split at clear
    · next keeps =>
      rw [if_pos keeps]
      exact tightened.cleared clear
    · cases clear

/-- Asking for more redaction never reveals anything. Let another schema with other names and
another suffix call secret every field that was secret before, and let the types, fields and groups,
and what is done with the rest, be the same. Then every leaf that shows under the new rules shows
under the old ones, at the same path and with the same value. -/
theorem shows_of_shows_stricter (registry : Registry) (apart : registry.KeysApart) (config : Config)
    (additional : AdditionalNames) (stricter : Registry) (suffix : Option String)
    (more : AdditionalNames)
    (tightened : Registry.Tightened ⟨config.secretSuffix, additional⟩ ⟨suffix, more⟩ registry
      stricter)
    (reference : String) (tree leaf : Tree) (path : List Step)
    (shows : ((ofConfig stricter { config with secretSuffix := suffix } more).walkRoot reference
      tree).value.Shows path leaf) :
    ((ofConfig registry config additional).walkRoot reference tree).value.Shows path leaf := by
  have stillApart := tightened.keysApart apart
  rw [value_walkRoot_eq_outcome stillApart] at shows
  rw [value_walkRoot_eq_outcome apart]
  exact (tightened_ofConfig tightened).shows (tightened.placeOfRoot reference) shows

/-- A type with a name that matches only the shorter suffix. -/
def address : Message :=
  .ofDeclarations "shop.Address"
    [.field (.scalar "city"), .field (.scalar "door_secret"), .field (.scalar "gate_old_secret")]

/-- A type with addresses and with ways to reach a customer. -/
def customer : Message :=
  .ofDeclarations "shop.Customer"
    [.field (.repeated (.message "addresses" ".shop.Address")), .field (.scalar "email"),
      .oneof "call" [.scalar "phone", .scalar "pager"]]

/-- With these types, a mark on the email, a shorter suffix and an additional name take out more.
The city shows as before. -/
theorem city_shows_under_stricter :
    let registry : Registry := .ofList [customer, address]
    let config : Config := { secretSuffix := some "_old_secret", unknownFields := .strip }
    let stricter := registry.withMarks fun message field =>
      message.name == "shop.Customer" && field.name == "email"
    let tree : Tree := .object [("addresses", .list [.object [("city", .string "c"),
      ("door_secret", .string "d"), ("gate_old_secret", .string "g")]]),
      ("call", .object [("phone", .string "p")]), ("email", .string "e")]
    registry.KeysApart ∧
      Registry.Tightened ⟨some "_old_secret", .empty⟩ ⟨some "_secret", .ofList ["Phone"]⟩ registry
        stricter ∧
      ((ofConfig stricter { config with secretSuffix := some "_secret" }
        (.ofList ["Phone"])).walkRoot "shop.Customer" tree).value =
          .object [("addresses", .list [.object [("city", .string "c"), ("door_secret", .stripped),
            ("gate_old_secret", .stripped)]]), ("call", .object [("phone", .stripped)]),
            ("email", .stripped)] ∧
      ((ofConfig registry config .empty).walkRoot "shop.Customer" tree).value.Shows
        [.key "addresses", .index 0, .key "city"] (.string "c") := by
  intro registry config stricter tree
  have apart : registry.KeysApart := by decide
  have wider : ∀ name, Policy.matchesName ⟨some "_old_secret", .empty⟩ name = true →
      Policy.matchesName ⟨some "_secret", .ofList ["Phone"]⟩ name = true :=
    fun _ => Policy.matchesName_of_wider (by decide) (by decide)
  have tightened := registry.tightened_withMarks wider fun message field =>
    message.name == "shop.Customer" && field.name == "email"
  have left : ((ofConfig stricter { config with secretSuffix := some "_secret" }
      (.ofList ["Phone"])).walkRoot "shop.Customer" tree).value =
        .object [("addresses", .list [.object [("city", .string "c"), ("door_secret", .stripped),
          ("gate_old_secret", .stripped)]]), ("call", .object [("phone", .stripped)]),
          ("email", .stripped)] := by decide
  refine ⟨apart, tightened, left, ?_⟩
  refine shows_of_shows_stricter registry apart config .empty stricter (some "_secret")
    (.ofList ["Phone"]) tightened "shop.Customer" tree (.string "c") _ ?_
  rw [left]
  exact .member List.mem_cons_self (.item rfl (.member List.mem_cons_self (.leaf rfl)))

end Walker

end Redaction

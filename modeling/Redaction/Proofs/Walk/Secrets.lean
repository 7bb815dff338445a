import Redaction.Proofs.Walk.Alike
import Redaction.Proofs.Walk.Pointwise
import Redaction.Proofs.Walk.Pruning
import Redaction.Sanitizer.Basic

/-!
# Secrets have no influence

Two trees that are alike outside secrets lead to the same walk, log included. A secret value is
taken out before anything is asked about it, and messages that are left alone hold no secrets. The
types have to be well named: otherwise a key could belong to two fields, one secret and one not.
-/

namespace Redaction

open Schema Redaction.Tree

namespace Walked

/-- A step that does the same to the two items in each place does the same to two lists. -/
theorem items_eq_of_pairs {step : Tree → Walked Tree} {pairs : List (Tree × Tree)}
    (same : ∀ pair ∈ pairs, step pair.1 = step pair.2) :
    items step (pairs.map Prod.fst) = items step (pairs.map Prod.snd) := by
  refine Walked.ext ?_ ?_
  · rw [value_items, value_items, List.map_map, List.map_map]
    exact List.map_congr_left fun pair member => congrArg value (same pair member)
  · rw [problems_items, problems_items, List.flatMap_map, List.flatMap_map]
    exact List.flatMap_congr fun pair member => congrArg problems (same pair member)

/-- A step that does the same to the two values of each key does the same to two objects. -/
theorem members_eq_of_triples {step : Tree → Walked Tree} {triples : List (String × Tree × Tree)}
    (same : ∀ triple ∈ triples, step triple.2.1 = step triple.2.2) :
    members step (triples.map fun triple => (triple.1, triple.2.1)) =
      members step (triples.map fun triple => (triple.1, triple.2.2)) := by
  refine Walked.ext ?_ ?_
  · rw [value_members, value_members, Members.mapValues, Members.mapValues, List.map_map,
      List.map_map]
    exact List.map_congr_left fun triple member =>
      congrArg (fun walked => (triple.1, walked.value)) (same triple member)
  · rw [problems_members, problems_members, List.flatMap_map, List.flatMap_map]
    exact List.flatMap_congr fun triple member => congrArg problems (same triple member)

end Walked

namespace Walker

section Alike

variable {walker : Walker} {enter : Enter} {message : Message} {bound : Nat}
  (undotted : walker.registry.Undotted)
  (safe : walker.SkipsHarmless)
  (enters : ∀ nested field first second, nested ∈ walker.registry.messages →
    walker.registry.AlikeMessages walker.policy nested first second →
    first.depth ≤ bound → second.depth ≤ bound →
    enter nested field first = enter nested field second)

include enters

/-- Alike values of a field with messages that are entered lead to the same walk. -/
theorem walkNested_eq_of_alike {field : Field} {nested : Message} {first second : Tree}
    (visible : walker.policy.isSensitive field = false)
    (resolved : walker.registry.nested? field = some nested)
    (alike : walker.registry.AlikeValues walker.policy field first second)
    (left : first.depth ≤ bound) (right : second.depth ≤ bound) :
    walker.walkNested enter message field nested first =
      walker.walkNested enter message field nested second := by
  have member := Registry.mem_of_nested?_eq_some resolved
  unfold walkNested
  cases alike with
  | same => rfl
  | secret sensitive =>
    rw [visible] at sensitive
    cases sensitive
  | singular single found alike =>
    obtain rfl := Option.some.inj (resolved.symm.trans found)
    rw [single]
    exact enters nested field first second member alike left right
  | list repeated found items each =>
    obtain rfl := Option.some.inj (resolved.symm.trans found)
    simp only [depth] at left right
    have lefts := itemsDepth_le_iff.mp (show itemsDepth (items.map Prod.fst) ≤ bound by omega)
    have rights := itemsDepth_le_iff.mp (show itemsDepth (items.map Prod.snd) ≤ bound by omega)
    rw [repeated]
    refine congrArg (Tree.list <$> ·) (Walked.items_eq_of_pairs fun item present => ?_)
    exact enters nested field _ _ member (each item present)
      (lefts _ (List.mem_map_of_mem present)) (rights _ (List.mem_map_of_mem present))
  | map map found members each =>
    obtain rfl := Option.some.inj (resolved.symm.trans found)
    simp only [depth] at left right
    have lefts := membersDepth_le_iff.mp
      (show membersDepth (members.map fun member => (member.1, member.2.1)) ≤ bound by omega)
    have rights := membersDepth_le_iff.mp
      (show membersDepth (members.map fun member => (member.1, member.2.2)) ≤ bound by omega)
    rw [map]
    refine congrArg (Tree.object <$> ·) (Walked.members_eq_of_triples fun entry present => ?_)
    exact enters nested field _ _ member (each entry present)
      (lefts _ (List.mem_map_of_mem present)) (rights _ (List.mem_map_of_mem present))

include undotted safe

/-- Alike values of a field lead to the same walk. -/
theorem walkField_eq_of_alike {field : Field} {first second : Tree}
    (alike : walker.registry.AlikeValues walker.policy field first second)
    (left : first.depth ≤ bound) (right : second.depth ≤ bound) :
    walker.walkField enter message field first = walker.walkField enter message field second := by
  rw [walkField_eq, walkField_eq]
  cases h : walker.registry.outlook walker.policy field with
  | secret => rfl
  | scalar =>
    obtain ⟨visible, plain⟩ := Registry.outlook_eq_scalar_iff.mp h
    have same := alike.eq visible (fun nested _ _ resolved => by
      rw [Registry.nested?, plain] at resolved
      cases resolved) left
    rw [same]
  | missing typeName =>
    obtain ⟨visible, refers, lost⟩ := Registry.outlook_eq_missing_iff.mp h
    have same := alike.eq visible (fun nested _ _ resolved => by
      rw [Registry.nested?, refers, Option.bind_some, lost] at resolved
      cases resolved) left
    rw [same]
  | message nested =>
    obtain ⟨visible, resolved⟩ := Registry.outlook_eq_message_iff.mp h
    have member := Registry.mem_of_nested?_eq_some resolved
    dsimp only
    split
    · next skipped =>
      have same := alike.eq visible (fun other _ _ found inner _ => by
        obtain rfl := Option.some.inj (resolved.symm.trans found)
        exact inner.eq undotted member (safe nested member skipped)) left
      rw [same]
    · exact walkNested_eq_of_alike enters visible resolved alike left right

variable (named : message.WellNamed)

include named

/-- Alike values of the key of a plain field lead to the same walk of the field. -/
theorem walkField_eq_of_alikeMembers {field : Field} (declared : field ∈ message.plainFields)
    {first second : Tree}
    (alike : walker.registry.AlikeMembers walker.policy message field.name first second)
    (left : first.depth ≤ bound) (right : second.depth ≤ bound) :
    walker.walkField enter message field first = walker.walkField enter message field second := by
  generalize key : field.name = name at alike
  cases alike with
  | same => rfl
  | @plain _ other _ _ present below =>
    have mine := named.plainField?_eq_some_iff.mpr ⟨declared, key⟩
    have theirs := named.plainField?_eq_some_iff.mpr ⟨present, rfl⟩
    obtain rfl := Option.some.inj (mine.symm.trans theirs)
    exact walkField_eq_of_alike undotted safe enters below left right
  | @alternative _ group other _ _ present _ =>
    obtain ⟨listed, belongs⟩ := List.mem_filter.mp present
    exact absurd (key ▸ message.group_listed other listed _ (beq_iff_eq.mp belongs))
      (named.apart field declared)

/-- Alike values of the key of a group lead to the same walk of the group. -/
theorem walkGroup_eq_of_alikeMembers {group : String} (listed : group ∈ message.groups)
    {first second : Tree}
    (alike : walker.registry.AlikeMembers walker.policy message group first second)
    (left : first.depth ≤ bound) (right : second.depth ≤ bound) :
    walker.walkGroup enter message group first = walker.walkGroup enter message group second := by
  cases alike with
  | same => rfl
  | plain declared _ => exact absurd listed (named.apart _ declared)
  | @alternative _ _ field _ _ present below =>
    simp only [depth, membersDepth] at left right
    have found := (find?_name_eq_some_iff (named.alternatives group listed)).mpr ⟨present, rfl⟩
    unfold walkGroup
    dsimp only
    rw [found]
    dsimp only
    rw [walkField_eq_of_alike undotted safe enters below (by omega) (by omega)]

/-- Alike values of a key are treated in the same way. -/
theorem treat_eq_of_alike {key : String} {first second : Tree}
    (alike : walker.registry.AlikeMembers walker.policy message key first second)
    (left : first.depth ≤ bound) (right : second.depth ≤ bound) :
    walker.treat enter message key first = walker.treat enter message key second := by
  unfold treat
  cases plain : message.plainField? key with
  | some field =>
    obtain ⟨declared, rfl⟩ := named.plainField?_eq_some_iff.mp plain
    exact congrArg (fun walked => some walked.value)
      (walkField_eq_of_alikeMembers undotted safe enters named declared alike left right)
  | none =>
    dsimp only
    split
    · next listed =>
      rw [walkGroup_eq_of_alikeMembers undotted safe enters named listed alike left right]
    · next unlisted =>
      -- the key belongs to nothing, so the values are the same
      cases alike with
      | same => rfl
      | plain declared _ => exact absurd rfl (find?_name_eq_none_iff.mp plain _ declared)
      | alternative present _ =>
        obtain ⟨listed, belongs⟩ := List.mem_filter.mp present
        exact absurd (message.group_listed _ listed _ (beq_iff_eq.mp belongs)) unlisted

/-- Alike members of a message lead to the same walk. -/
theorem walkMembers_eq_of_alike {members : List (String × Tree × Tree)}
    (each : ∀ member ∈ members,
      walker.registry.AlikeMembers walker.policy message member.1 member.2.1 member.2.2)
    (left : ∀ member ∈ members, member.2.1.depth ≤ bound)
    (right : ∀ member ∈ members, member.2.2.depth ≤ bound) :
    walker.walkMembers enter message (members.map fun member => (member.1, member.2.1)) =
      walker.walkMembers enter message (members.map fun member => (member.1, member.2.2)) := by
  refine Walked.ext ?_ ?_
  · rw [value_walkMembers_eq_treat _ _ _ named, value_walkMembers_eq_treat _ _ _ named]
    exact Members.rewrite_eq_of_triples fun member present =>
      treat_eq_of_alike undotted safe enters named (each member present) (left member present)
        (right member present)
  · rw [problems_walkMembers _ _ _ named.keysApart,
      problems_walkMembers _ _ _ named.keysApart]
    refine congrArg₂ _ (List.flatMap_congr fun field declared => ?_)
      (List.flatMap_congr fun group listed => ?_)
    · refine Members.gather_eq_of_triples fun member present here => ?_
      have alike := each member present
      rw [here] at alike
      exact congrArg Walked.problems (walkField_eq_of_alikeMembers undotted safe enters named
        declared alike (left member present) (right member present))
    · refine Members.gather_eq_of_triples fun member present here => ?_
      have alike := each member present
      rw [here] at alike
      exact congrArg Walked.problems (walkGroup_eq_of_alikeMembers undotted safe enters named
        listed alike (left member present) (right member present))

end Alike

/-- Alike messages lead to the same walk within any bound that they keep. -/
theorem walkWithin_eq_of_alike {walker : Walker} (undotted : walker.registry.Undotted)
    (named : walker.registry.WellNamed)
    (safe : walker.SkipsHarmless)
    (bound : Nat) {message : Message} (owner : Option Field) {first second : Tree}
    (member : message ∈ walker.registry.messages)
    (alike : walker.registry.AlikeMessages walker.policy message first second)
    (left : first.depth ≤ bound) (right : second.depth ≤ bound) :
    walker.walkWithin bound message owner first = walker.walkWithin bound message owner second := by
  induction bound generalizing message owner first second with
  | zero =>
    cases alike with
    | same => rfl
    | object members each =>
      simp only [depth] at left
      omega
  | succ bound ih =>
    cases alike with
    | same => rfl
    | object members each =>
      simp only [depth] at left right
      have lefts := membersDepth_le_iff.mp
        (show membersDepth (members.map fun member => (member.1, member.2.1)) ≤ bound by omega)
      have rights := membersDepth_le_iff.mp
        (show membersDepth (members.map fun member => (member.1, member.2.2)) ≤ bound by omega)
      have enters : ∀ nested field first second, nested ∈ walker.registry.messages →
          walker.registry.AlikeMessages walker.policy nested first second →
          first.depth ≤ bound → second.depth ≤ bound →
          walker.walkWithin bound nested (some field) first =
            walker.walkWithin bound nested (some field) second :=
        fun nested field first second known inner => ih (some field) known inner
      rw [walkWithin, walkWithin]
      refine congrArg (Tree.object <$> ·) ?_
      exact walkMembers_eq_of_alike undotted safe enters (named message member) each
        (fun _ present => lefts _ (List.mem_map_of_mem present))
        fun _ present => rights _ (List.mem_map_of_mem present)

/-- Alike trees lead to the same walk. -/
theorem walkRoot_eq_of_alike {walker : Walker} (undotted : walker.registry.Undotted)
    (named : walker.registry.WellNamed)
    (safe : walker.SkipsHarmless)
    {reference : String} {first second : Tree}
    (alike : walker.registry.Alike walker.policy reference first second) :
    walker.walkRoot reference first = walker.walkRoot reference second := by
  rcases alike with rfl | ⟨message, resolved, alike⟩
  · rfl
  · have member := Registry.mem_of_get?_eq_some resolved
    rw [walkRoot, walkRoot, resolved]
    dsimp only
    split
    · next skipped => rw [alike.eq undotted member (safe message member skipped)]
    · -- both walks take place within the greater of the two depths
      have left := Nat.le_max_left first.depth second.depth
      have right := Nat.le_max_right first.depth second.depth
      rw [← walkWithin_eq_walkMessage message none left,
        ← walkWithin_eq_walkMessage message none right]
      exact walkWithin_eq_of_alike undotted named safe _ none member alike left right

/-- Secrets have no influence: two documents that are alike outside secrets are rendered as the same
text, with the same events in the same order, whatever the configuration and the policy. -/
theorem sanitizeDocument_eq_of_alike (registry : Registry) (named : registry.WellNamed)
    (undotted : registry.Undotted) (config : Config) (additional : AdditionalNames)
    (reference : String) (first second : Json)
    (alike : registry.Alike ⟨config.secretSuffix, additional⟩ reference (.ofJson first)
      (.ofJson second)) :
    config.sanitizeDocument registry additional reference first =
      config.sanitizeDocument registry additional reference second := by
  have sameTypes : (ofConfig registry config additional).registry.Undotted := undotted
  have same : (ofConfig registry config additional).walkRoot reference (.ofJson first) =
      (ofConfig registry config additional).walkRoot reference (.ofJson second) :=
    walkRoot_eq_of_alike sameTypes named (skipsHarmless_ofConfig config additional undotted) alike
  rw [Config.sanitizeDocument, Config.sanitizeDocument, Config.redactTree, Config.redactTree, same]

/-- A type of people whose secret bears no mark. -/
def person : Message :=
  .ofDeclarations "home.Person" [.field (.scalar "name"), .field (.scalar "token")]

/-- A type with a secret of its own, people in a list and a secret alternative. -/
def household : Message :=
  .ofDeclarations "home.Household"
    [.field (.secret (.scalar "alarm")), .field (.repeated (.message "people" ".home.Person")),
      .oneof "lock" [.scalar "open", .secret (.scalar "code")]]

/-- With these types and `token` as an additional name, documents that hold other secrets have the
same text and events, also where unknown data is kept and what does not fit may pass. -/
theorem household_eq_of_alike :
    let config : Config := { unknownFields := .keep, fallback := .passthrough }
    let first : Json := .object [("alarm", .string "1"), ("lock", .object [("code", .bool true)]),
      ("people", .array [.object [("name", .string "n"), ("token", .string "t")], .bool false])]
    let second : Json := .object [("alarm", .array [.string "2"]),
      ("lock", .object [("code", .object [])]),
      ("people", .array [.object [("name", .string "n"), ("token", .bool false)], .bool false])]
    config.sanitizeDocument (.ofList [household, person]) (.ofList ["Token"]) "home.Household"
        first =
      config.sanitizeDocument (.ofList [household, person]) (.ofList ["Token"]) "home.Household"
        second := by
  intro config first second
  let registry : Registry := .ofList [household, person]
  let policy : Policy := ⟨none, .ofList ["Token"]⟩
  have same : registry.AlikeMessages policy person
      (.object [("name", .string "n"), ("token", .string "t")])
      (.object [("name", .string "n"), ("token", .bool false)]) :=
    .object [("name", .string "n", .string "n"), ("token", .string "t", .bool false)]
      (List.forall_mem_cons.mpr ⟨.same _ _ _, List.forall_mem_singleton.mpr
        (.plain (show Field.scalar "token" ∈ person.plainFields by decide)
          (.secret (by decide) _ _))⟩)
  have people : registry.AlikeValues policy
      (.repeated (.message "people" ".home.Person"))
      (.list [.object [("name", .string "n"), ("token", .string "t")], .bool false])
      (.list [.object [("name", .string "n"), ("token", .bool false)], .bool false]) :=
    .list rfl (show registry.nested? (.repeated (.message "people" ".home.Person")) =
        some person by decide)
      [(.object [("name", .string "n"), ("token", .string "t")],
        .object [("name", .string "n"), ("token", .bool false)]), (.bool false, .bool false)]
      (List.forall_mem_cons.mpr ⟨same, List.forall_mem_singleton.mpr (.same _ _)⟩)
  have alarm : registry.AlikeMembers policy household "alarm" (.string "1")
      (.list [.string "2"]) :=
    .plain (show Field.secret (.scalar "alarm") ∈ household.plainFields by decide)
      (.secret (by decide) _ _)
  have lock : registry.AlikeMembers policy household "lock" (.object [("code", .bool true)])
      (.object [("code", .object [])]) :=
    .alternative (show Field.inGroup (.secret (.scalar "code")) "lock" ∈
      household.alternatives "lock" by decide) (.secret (by decide) _ _)
  have alike : registry.Alike policy "home.Household" (.ofJson first) (.ofJson second) := by
    refine .inr ⟨household, by decide, ?_⟩
    exact .object [("alarm", .string "1", .list [.string "2"]),
      ("lock", .object [("code", .bool true)], .object [("code", .object [])]),
      ("people", .list [.object [("name", .string "n"), ("token", .string "t")], .bool false],
        .list [.object [("name", .string "n"), ("token", .bool false)], .bool false])]
      (List.forall_mem_cons.mpr ⟨alarm, List.forall_mem_cons.mpr ⟨lock,
        List.forall_mem_singleton.mpr (.plain
          (show Field.repeated (.message "people" ".home.Person") ∈ household.plainFields
            by decide) people)⟩⟩)
  exact sanitizeDocument_eq_of_alike registry (by decide) (by decide) config (.ofList ["Token"])
    "home.Household" first second alike

end Walker

end Redaction

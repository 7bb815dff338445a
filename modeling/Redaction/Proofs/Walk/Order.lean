import Redaction.Proofs.Schema.Reordered
import Redaction.Proofs.Walk.Depth
import Redaction.Proofs.Walk.Pointwise
import Redaction.Sanitizer.Basic

/-!
# The order of declaration

In well-named types each member of a message is treated by itself. Hence the order in which the
fields and groups of the types are declared has no influence on what a walk leaves. It only decides
in which order the problems are met.
-/

namespace Redaction

open Schema Redaction.Tree

namespace Walked

variable {α β : Type}

/-- Two walks have the same result and meet the same problems, in whatever order. -/
structure Permutes (walked other : Walked α) : Prop where
  /-- The results are the same. -/
  value : walked.value = other.value
  /-- The problems are the same. -/
  problems : walked.problems.Perm other.problems

namespace Permutes

/-- The same walk twice. -/
theorem refl (walked : Walked α) : Permutes walked walked := ⟨rfl, .refl _⟩

/-- A function of the result. -/
theorem map {walked other : Walked α} (f : α → β) (same : Permutes walked other) :
    Permutes (f <$> walked) (f <$> other) := by
  refine ⟨?_, ?_⟩
  · rw [value_map, value_map, same.value]
  · rw [problems_map, problems_map]
    exact same.problems

/-- The items of a list. -/
theorem items {step other : Tree → Walked Tree} (list : List Tree)
    (each : ∀ item, Permutes (step item) (other item)) :
    Permutes (Walked.items step list) (Walked.items other list) := by
  refine ⟨?_, ?_⟩
  · rw [value_items, value_items]
    exact List.map_congr_left fun item _ => (each item).value
  · rw [problems_items, problems_items]
    exact .flatMap_left list fun item _ => (each item).problems

/-- The values of an object. -/
theorem members {step other : Tree → Walked Tree} (list : List (String × Tree))
    (each : ∀ value, Permutes (step value) (other value)) :
    Permutes (Walked.members step list) (Walked.members other list) := by
  refine ⟨?_, ?_⟩
  · rw [value_members, value_members]
    exact List.map_congr_left fun member _ => congrArg _ (each member.2).value
  · rw [problems_members, problems_members]
    exact .flatMap_left list fun member _ => (each member.2).problems

end Permutes

end Walked

/-- Whether two outlooks differ at most in the order in which a type is declared. -/
inductive Outlook.Reordered : Outlook → Outlook → Prop where
  /-- Both values are secret. -/
  | secret : Reordered .secret .secret
  /-- Both values hold no messages. -/
  | scalar : Reordered .scalar .scalar
  /-- Both values hold messages of the same missing type. -/
  | missing (typeName : String) : Reordered (.missing typeName) (.missing typeName)
  /-- Both values hold messages of a type, up to the order of declaration. -/
  | message {nested twin : Message} (alike : nested.Reordered twin) :
    Reordered (.message nested) (.message twin)

/-- The order of declaration hardly changes the outlook of a field. -/
theorem outlook_reordered {registry other : Registry} (same : registry.Reordered other)
    (policy : Policy) (field : Field) :
    (registry.outlook policy field).Reordered (other.outlook policy field) := by
  unfold Registry.outlook
  split
  · exact .secret
  · cases field.typeName? with
    | none => exact .scalar
    | some typeName =>
      have found := same.get? typeName
      dsimp only
      generalize registry.get? typeName = before at found
      generalize other.get? typeName = after at found
      cases found with
      | none => exact .missing typeName
      | some alike => exact .message alike

namespace Walker

/-- The walker with other types. -/
def withTypes (walker : Walker) (registry : Registry) : Walker := { walker with registry }

/-- The walker with other types walks the value of a field as its outlook there says. -/
theorem walkField_withTypes (walker : Walker) (registry : Registry) (enter : Enter)
    (message : Message) (field : Field) (value : Tree) :
    (walker.withTypes registry).walkField enter message field value =
      match registry.outlook walker.policy field with
      | .secret => pure .stripped
      | .scalar => pure value
      | .missing typeName => walker.fallBack (.unknownType typeName) value
      | .message nested =>
        if walker.skips nested then pure value
        else (walker.withTypes registry).walkNested enter message field nested value :=
  walkField_eq _ _ _ _ _

section Reordered

variable {walker : Walker} {registry : Registry} {enter other : Enter}
  (reordered : walker.registry.Reordered registry)
  (permutes : ∀ nested counterpart field value, nested ∈ walker.registry.messages →
    nested.Reordered counterpart →
    (enter nested field value).Permutes (other counterpart field value))

include permutes

/-- The walks of the messages in a field permute each other if those of a single message do. -/
theorem permutes_walkNested {message counterpart nested twin : Message}
    (same : message.Reordered counterpart) (member : nested ∈ walker.registry.messages)
    (alike : nested.Reordered twin) (field : Field) (value : Tree) :
    (walker.walkNested enter message field nested value).Permutes
      ((walker.withTypes registry).walkNested other counterpart field twin value) := by
  unfold walkNested
  cases field.cardinality with
  | singular => exact permutes nested twin field value member alike
  | repeated =>
    dsimp only
    split
    · exact (Walked.Permutes.items _ fun item =>
        permutes nested twin field item member alike).map Tree.list
    · rw [same.name]
      exact .refl _
  | map =>
    dsimp only
    split
    · exact (Walked.Permutes.members _ fun value =>
        permutes nested twin field value member alike).map Tree.object
    · rw [same.name]
      exact .refl _

include reordered

/-- The walks of the value of a field permute each other. -/
theorem permutes_walkField {message counterpart : Message}
    (same : message.Reordered counterpart) (field : Field) (value : Tree) :
    (walker.walkField enter message field value).Permutes
      ((walker.withTypes registry).walkField other counterpart field value) := by
  rw [walkField_withTypes, walkField_eq]
  have outlooks := outlook_reordered reordered walker.policy field
  cases h : walker.registry.outlook walker.policy field with
  | message nested =>
    have member := Registry.mem_of_nested?_eq_some (Registry.outlook_eq_message_iff.mp h).2
    rw [h] at outlooks
    generalize registry.outlook walker.policy field = outlook at outlooks
    cases outlooks with
    | message alike =>
      dsimp only
      rw [skips, skips, alike.name]
      split
      · exact .refl _
      · exact permutes_walkNested permutes same member alike field value
  | _ =>
    rw [h] at outlooks
    generalize registry.outlook walker.policy field = outlook at outlooks
    cases outlooks
    exact .refl _

/-- The walks of the value of a group permute each other. -/
theorem permutes_walkGroup {message counterpart : Message} (same : message.Reordered counterpart)
    (named : message.WellNamed) {group : String} (listed : group ∈ message.groups)
    (value : Tree) :
    (walker.walkGroup enter message group value).Permutes
      ((walker.withTypes registry).walkGroup other counterpart group value) := by
  unfold walkGroup
  match value with
  | .object [(active, inner)] =>
    have first := same.alternative? named listed active
    unfold Message.alternative? at first
    dsimp only
    rw [← first]
    cases (message.alternatives group).find? fun alternative => alternative.name == active with
    | none => exact .refl _
    | some field =>
      exact (permutes_walkField reordered permutes same field inner).map fun inner =>
        some (Tree.object [(active, inner)])
  | .null | .stripped => exact .refl _
  | .bool _ | .number _ | .string _ | .list _ | .object [] | .object (_ :: _ :: _) =>
    dsimp only
    rw [same.name]
    exact .refl _

/-- The walks of the members of a message permute each other. -/
theorem permutes_walkMembers {message counterpart : Message}
    (same : message.Reordered counterpart) (named : message.WellNamed)
    (members : List (String × Tree)) :
    (walker.walkMembers enter message members).Permutes
      ((walker.withTypes registry).walkMembers other counterpart members) := by
  have otherNamed := same.wellNamed named
  refine ⟨?_, ?_⟩
  · rw [value_walkMembers_eq_treat _ _ _ named, value_walkMembers_eq_treat _ _ _ otherNamed]
    refine Members.rewrite_congr fun key value _ => ?_
    rw [treat, treat, ← same.plainField? named key]
    cases message.plainField? key with
    | some field =>
      exact congrArg some (permutes_walkField reordered permutes same field value).value
    | none =>
      dsimp only
      by_cases listed : key ∈ message.groups
      · rw [if_pos listed, if_pos (same.groups.mem_iff.mp listed)]
        exact (permutes_walkGroup reordered permutes same named listed value).value
      · rw [if_neg listed, if_neg fun present => listed (same.groups.mem_iff.mpr present)]
        rfl
  · rw [problems_walkMembers _ _ _ named.keysApart,
      problems_walkMembers _ _ _ otherNamed.keysApart]
    refine (List.Perm.flatMap same.plainFields fun field _ => ?_).append
      (List.Perm.flatMap same.groups fun group listed => ?_)
    · exact Members.gather_perm members fun value =>
        (permutes_walkField reordered permutes same field value).problems
    · exact Members.gather_perm members fun value =>
        (permutes_walkGroup reordered permutes same named listed value).problems

end Reordered

/-- In another order of declaration, the walks of a message permute each other. -/
theorem permutes_walkWithin {walker : Walker} {registry : Registry}
    (reordered : walker.registry.Reordered registry) (named : walker.registry.WellNamed)
    (bound : Nat) {message counterpart : Message} (owner : Option Field) (value : Tree)
    (member : message ∈ walker.registry.messages) (same : message.Reordered counterpart) :
    (walker.walkWithin bound message owner value).Permutes
      ((walker.withTypes registry).walkWithin bound counterpart owner value) := by
  induction bound generalizing message counterpart owner value with
  | zero =>
    cases value with
    | object members => exact .refl _
    | _ =>
      rw [walkWithin_of_members?_eq_none _ _ _ _ rfl, walkWithin_of_members?_eq_none _ _ _ _ rfl,
        same.name]
      exact .refl _
  | succ bound ih =>
    cases value with
    | object members =>
      rw [walkWithin, walkWithin]
      refine (permutes_walkMembers reordered (fun nested counterpart field part known alike => ?_)
        same (named message member) members).map Tree.object
      exact ih (some field) part known alike
    | _ =>
      rw [walkWithin_of_members?_eq_none _ _ _ _ rfl, walkWithin_of_members?_eq_none _ _ _ _ rfl,
        same.name]
      exact .refl _

/-- In another order of declaration the walker of a configuration is the same, up to its types. -/
theorem ofConfig_withTypes {registry other : Registry} (reordered : registry.Reordered other)
    (config : Config) (additional : AdditionalNames) :
    ofConfig other config additional = (ofConfig registry config additional).withTypes other := by
  rw [ofConfig, ofConfig, withTypes, reordered.cleared]

/-- In another order of declaration, the walks of a tree permute each other. -/
theorem permutes_walkRoot {walker : Walker} {registry : Registry}
    (reordered : walker.registry.Reordered registry) (named : walker.registry.WellNamed)
    (reference : String) (tree : Tree) :
    (walker.walkRoot reference tree).Permutes
      ((walker.withTypes registry).walkRoot reference tree) := by
  have found : Option.Rel Message.Reordered (walker.registry.get? reference)
      ((walker.withTypes registry).registry.get? reference) := reordered.get? reference
  rw [walkRoot, walkRoot]
  generalize resolved : walker.registry.get? reference = before at found
  generalize (walker.withTypes registry).registry.get? reference = after at found
  cases found with
  | none => exact .refl _
  | @some message counterpart same =>
    have member := Registry.mem_of_get?_eq_some resolved
    have skipped : (walker.withTypes registry).skips counterpart = walker.skips message := by
      rw [skips, skips, same.name]
      rfl
    dsimp only
    rw [skipped]
    split
    · exact .refl _
    · exact permutes_walkWithin reordered named tree.depth none tree member same

/-- In a message of a well-named type, each member is treated by itself: the walk of the message
leaves exactly what the treatments of its members leave. Hence the fields, groups and alternatives
of the types may be declared in another order: the text of a document stays the same, and its events
only come in another order. -/
theorem members_treated_alone (registry : Registry) (named : registry.WellNamed) (config : Config)
    (additional : AdditionalNames) :
    (∀ message ∈ registry.messages, ∀ owner members,
      let walker := ofConfig registry config additional
      (walker.walkMessage message owner (.object members)).value =
        .object (Members.rewrite (walker.treat walker.enterMessage message) members)) ∧
    ∀ other, registry.Reordered other → ∀ reference document,
      (config.sanitizeDocument other additional reference document).result =
          (config.sanitizeDocument registry additional reference document).result ∧
        (config.sanitizeDocument other additional reference document).events.Perm
          (config.sanitizeDocument registry additional reference document).events := by
  refine ⟨fun message member owner members => ?_, fun other reordered reference document => ?_⟩
  · dsimp only
    rw [walkMessage_object, Walked.value_map,
      value_walkMembers_eq_treat _ _ _ (named message member)]
  · have sameTypes : (ofConfig registry config additional).registry.Reordered other := reordered
    have permutes := permutes_walkRoot sameTypes named reference (.ofJson document)
    unfold Config.sanitizeDocument Config.redactTree
    rw [ofConfig_withTypes reordered]
    refine ⟨?_, ?_⟩
    · dsimp only
      rw [permutes.value]
    · exact (permutes.problems.map _).symm

/-- A type of which two fields refer to missing types. -/
def parcel : Registry :=
  .ofList [.ofDeclarations "post.Parcel"
    [.field (.message "sender" "post.Person"), .field (.message "box" "post.Box"),
      .oneof "proof" [.secret (.scalar "code"), .scalar "photo"]]]

/-- The same type, declared in another order. -/
def parcelReordered : Registry :=
  .ofList [.ofDeclarations "post.Parcel"
    [.oneof "proof" [.scalar "photo", .secret (.scalar "code")],
      .field (.message "box" "post.Box"), .field (.message "sender" "post.Person")]]

/-- With these types, the text is the same and the two events change places. -/
theorem parcel_treated_alone :
    parcel.WellNamed ∧ parcel.Reordered parcelReordered ∧
    (let walker := ofConfig parcel {} .empty
      ∀ message ∈ parcel.messages,
        (walker.walkMessage message none (.object [("box", .bool true), ("stray", .null)])).value =
          .object (Members.rewrite (walker.treat walker.enterMessage message)
            [("box", .bool true), ("stray", .null)])) ∧
    let document : Json := .object [("box", .string "b"),
      ("proof", .object [("code", .string "c")]), ("sender", .string "s")]
    (Config.sanitizeDocument {} parcelReordered .empty "post.Parcel" document).result =
        (Config.sanitizeDocument {} parcel .empty "post.Parcel" document).result ∧
      (Config.sanitizeDocument {} parcelReordered .empty "post.Parcel" document).events.Perm
        (Config.sanitizeDocument {} parcel .empty "post.Parcel" document).events ∧
      (Config.sanitizeDocument {} parcelReordered .empty "post.Parcel" document).events ≠
        (Config.sanitizeDocument {} parcel .empty "post.Parcel" document).events := by
  have named : parcel.WellNamed := by decide
  have reordered : parcel.Reordered parcelReordered := by decide
  obtain ⟨alone, order⟩ := members_treated_alone parcel named {} .empty
  obtain ⟨text, events⟩ := order parcelReordered reordered "post.Parcel"
    (.object [("box", .string "b"), ("proof", .object [("code", .string "c")]),
      ("sender", .string "s")])
  exact ⟨named, reordered, fun message member => alone message member none _, text, events,
    by decide⟩

end Walker

end Redaction

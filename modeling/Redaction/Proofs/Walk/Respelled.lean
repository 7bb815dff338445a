import Redaction.Proofs.Schema.Respelled
import Redaction.Proofs.Walk.Order

/-!
# One leading dot

A walk meets names of types at five places: where a type is declared, where a field refers to it,
where it is looked up, where it is searched for secrets and where the walk begins. At all of them a
leading dot is taken off. Hence it does not matter whether names and references are written with or
without a dot in front: the types answer the same questions in the same way, the same of them are
left alone, and every document has the same text.
-/

namespace Redaction

open Schema Redaction.Tree

namespace Walker

/-- The walker with references written without their dots. -/
def plain (walker : Walker) : Walker := walker.withTypes walker.registry.plain

variable {walker : Walker} {message : Message} {enter twin : Enter}

/-- The same messages are left alone. -/
theorem skips_plain (walker : Walker) (message : Message) :
    walker.plain.skips message.plain = walker.skips message := rfl

/-- The same is done about unknown keys. -/
theorem settleUnknown_plain (walker : Walker) (message : Message)
    (members : List (String × Tree)) :
    walker.plain.settleUnknown message.plain members = walker.settleUnknown message members := by
  have same : message.plain.isKnownKey = message.isKnownKey := funext message.isKnownKey_plain
  rw [settleUnknown, settleUnknown, same]
  rfl

section Plain

variable (same : ∀ nested ∈ walker.registry.messages, ∀ field value,
  twin nested.plain field.plain value = enter nested field value)

include same

/-- The messages in a field are walked in the same way if a single message is. -/
theorem walkNested_plain {nested : Message} (member : nested ∈ walker.registry.messages)
    (field : Field) (value : Tree) :
    walker.plain.walkNested twin message.plain field.plain nested.plain value =
      walker.walkNested enter message field nested value := by
  have each : twin nested.plain field.plain = enter nested field :=
    funext (same nested member field)
  unfold walkNested
  rw [each]
  rfl

/-- The value of a field is walked in the same way. -/
theorem walkField_plain {field : Field} (plain : field.Undotted) (value : Tree) :
    walker.plain.walkField twin message.plain field.plain value =
      walker.walkField enter message field value := by
  rw [walkField, walkField, Field.typeName?_plain plain]
  refine if_congr Iff.rfl rfl ?_
  cases field.typeName? with
  | none => rfl
  | some typeName =>
    have found : walker.plain.registry.get? typeName =
        (walker.registry.get? typeName).map Message.plain := walker.registry.get?_plain typeName
    dsimp only
    rw [found]
    cases resolved : walker.registry.get? typeName with
    | none => rfl
    | some nested =>
      refine if_congr Iff.rfl rfl ?_
      exact walkNested_plain same (Registry.mem_of_get?_eq_some resolved) field value

variable (plain : ∀ field ∈ message.fields, field.Undotted)

include plain

/-- The value of a group is walked in the same way. -/
theorem walkGroup_plain (group : String) (value : Tree) :
    walker.plain.walkGroup twin message.plain group value =
      walker.walkGroup enter message group value := by
  unfold walkGroup
  match value with
  | .object [(active, inner)] =>
    have found : ((message.plain.alternatives group).find? (·.name == active)) =
        ((message.alternatives group).find? (·.name == active)).map Field.plain := by
      rw [message.alternatives_plain, List.find?_map]
      rfl
    dsimp only
    rw [found]
    cases first : (message.alternatives group).find? (·.name == active) with
    | none => rfl
    | some field =>
      have declared : field ∈ message.fields :=
        List.mem_of_mem_filter (List.mem_of_find?_eq_some first)
      dsimp only [Option.map_some]
      rw [walkField_plain same (plain field declared)]
  | .null | .stripped => rfl
  | .bool _ | .number _ | .string _ | .list _ | .object [] | .object (_ :: _ :: _) => rfl

/-- The groups are walked in the same way. -/
theorem walkGroups_plain (groups : List String) (members : List (String × Tree)) :
    walker.plain.walkGroups twin message.plain groups members =
      walker.walkGroups enter message groups members := by
  have each (group : String) : walker.plain.walkGroup twin message.plain group =
      walker.walkGroup enter message group := funext (walkGroup_plain same plain group)
  induction groups generalizing members with
  | nil => rfl
  | cons group rest ih =>
    rw [walkGroups, walkGroups, each]
    exact bind_congr ih

/-- Plain fields are walked in the same way. -/
theorem walkPlainFields_plain {fields : List Field} (declared : fields ⊆ message.fields)
    (members : List (String × Tree)) :
    walker.plain.walkPlainFields twin message.plain (fields.map Field.plain) members =
      walker.walkPlainFields enter message fields members := by
  induction fields generalizing members with
  | nil => rfl
  | cons field rest ih =>
    obtain ⟨first, later⟩ := List.cons_subset.mp declared
    have each : walker.plain.walkField twin message.plain field.plain =
        walker.walkField enter message field := funext (walkField_plain same (plain field first))
    rw [List.map_cons, walkPlainFields, walkPlainFields, each]
    exact bind_congr (ih later)

/-- The members of a message are walked in the same way. -/
theorem walkMembers_plain (members : List (String × Tree)) :
    walker.plain.walkMembers twin message.plain members =
      walker.walkMembers enter message members := by
  have declared : message.plainFields ⊆ message.fields := List.filter_sublist.subset
  rw [walkMembers, walkMembers, message.plainFields_plain, settleUnknown_plain,
    walkPlainFields_plain same plain declared]
  exact bind_congr (walkGroups_plain same plain message.groups)

end Plain

/-- A message is walked in the same way. -/
theorem walkWithin_plain (undotted : walker.registry.Undotted) (bound : Nat)
    (member : message ∈ walker.registry.messages) (owner : Option Field) (value : Tree) :
    walker.plain.walkWithin bound message.plain (owner.map Field.plain) value =
      walker.walkWithin bound message owner value := by
  induction bound generalizing message owner value with
  | zero =>
    cases value with
    | object members => rfl
    | _ => cases owner <;> rfl
  | succ bound ih =>
    cases value with
    | object members =>
      rw [walkWithin, walkWithin, walkMembers_plain _ (undotted.typeName message member)]
      exact fun nested known field part => ih known (some field) part
    | _ => cases owner <;> rfl

/-- A tree is walked in the same way. -/
theorem walkRoot_plain (undotted : walker.registry.Undotted) (reference : String) (tree : Tree) :
    walker.plain.walkRoot reference tree = walker.walkRoot reference tree := by
  have found : walker.plain.registry.get? reference =
      (walker.registry.get? reference).map Message.plain := walker.registry.get?_plain reference
  rw [walkRoot, walkRoot, found]
  cases resolved : walker.registry.get? reference with
  | none => rfl
  | some message =>
    have member := Registry.mem_of_get?_eq_some resolved
    refine if_congr Iff.rfl rfl ?_
    exact walkWithin_plain undotted tree.depth member none tree

/-- The walker of a configuration leaves the dots of the references out. -/
theorem ofConfig_plain {registry : Registry} (undotted : registry.Undotted) (config : Config)
    (additional : AdditionalNames) :
    ofConfig registry.plain config additional = (ofConfig registry config additional).plain := by
  rw [ofConfig, ofConfig, plain, withTypes, Registry.cleared_plain undotted]

/-- A dot in front of the name of the root does not matter, unless the type is unknown: then the
problem names the type as it is written. -/
theorem walkRoot_of_spells (walker : Walker) {root written : String} (spells : Spells root written)
    (tree : Tree) :
    (walker.walkRoot written tree).value = (walker.walkRoot root tree).value ∧
      (walker.registry.contains root = true →
        walker.walkRoot written tree = walker.walkRoot root tree) := by
  rw [walkRoot, walkRoot, walker.registry.get?_of_spells spells]
  cases resolved : walker.registry.get? root with
  | none =>
    refine ⟨rfl, fun known => ?_⟩
    exact absurd (List.contains_iff_mem.mp known) (Registry.find?_eq_none_iff.mp resolved)
  | some message => exact ⟨rfl, fun _ => rfl⟩

/-- Where no name of a type starts with a dot, one dot in front of any names and references, when
they are declared or looked up, is ignored: the types answer all questions in the same way, up to
the text of references, the same types are left alone, and every document has the same text. Its
events are the same as well, if the type of the root is known. -/
theorem leading_dot_ignored {schema written : List Written}
    (spells : List.Forall₂ Written.Spells schema written) :
    let registry := Registry.ofList (schema.map Written.message)
    let twin := Registry.ofList (written.map Written.message)
    twin.AnswersAs registry ∧
      ∀ (config : Config) (additional : AdditionalNames),
        (∀ type, (ofConfig twin config additional).skips type =
          (ofConfig registry config additional).skips type.plain) ∧
        ∀ root reference, Schema.Spells root reference → ∀ document,
          let first := config.sanitizeDocument registry additional root document
          let second := config.sanitizeDocument twin additional reference document
          second.result = first.result ∧
            (registry.contains root = true → second.events = first.events) := by
  intro registry twin
  have plain : twin.plain = registry := Registry.plain_ofList_message spells
  have undotted : twin.Undotted := Registry.undotted_ofList_message spells
  rw [← plain]
  refine ⟨twin.answersAs_plain, fun config additional => ?_⟩
  rw [ofConfig_plain undotted]
  refine ⟨fun type => (skips_plain _ type).symm, fun root reference same document => ?_⟩
  have walked : (ofConfig twin.plain config additional).walkRoot root (.ofJson document) =
      (ofConfig twin config additional).walkRoot root (.ofJson document) := by
    rw [ofConfig_plain undotted]
    exact walkRoot_plain undotted root _
  obtain ⟨value, whole⟩ :=
    walkRoot_of_spells (ofConfig twin config additional) same (.ofJson document)
  have known : twin.plain.contains root = twin.contains root := by
    rw [Registry.contains, Registry.contains, Registry.names_plain]
  dsimp only [Config.sanitizeDocument, Config.redactTree]
  rw [walked, value, known]
  exact ⟨rfl, fun contains => by rw [whole contains]⟩

/-- Accounts with a password and a plan. -/
def accounts : List Written :=
  [⟨"demo.Account",
      [.field (.message "login" "demo.Login"), .field (.message "plan" "demo.Plan")]⟩,
    ⟨"demo.Login", [.field (.secret (.scalar "password"))]⟩,
    ⟨"demo.Plan", [.oneof "price" [.scalar "free", .message "paid" "demo.Amount"]]⟩,
    ⟨"demo.Amount", [.field (.scalar "cents")]⟩]

/-- The same types, some names written with a dot in front. -/
def accountsDotted : List Written :=
  [⟨"demo.Account",
      [.field (.message "login" ".demo.Login"), .field (.message "plan" "demo.Plan")]⟩,
    ⟨".demo.Login", [.field (.secret (.scalar "password"))]⟩,
    ⟨".demo.Plan", [.oneof "price" [.scalar "free", .message "paid" ".demo.Amount"]]⟩,
    ⟨"demo.Amount", [.field (.scalar "cents")]⟩]

/-- With these types, the fields of a plan are found and an account has the same text. -/
theorem accounts_dotted :
    let registry := Registry.ofList (accounts.map Written.message)
    let twin := Registry.ofList (accountsDotted.map Written.message)
    let document : Json := .object [("login", .object [("password", .string "p")]),
      ("plan", .object [("price", .object [("paid", .object [("cents", .string "5")])])])]
    List.Forall₂ Written.Spells accounts accountsDotted ∧
      Schema.Spells "demo.Account" ".demo.Account" ∧
      (twin.fieldsOf? "demo.Plan").map (List.map Field.plain) = registry.fieldsOf? "demo.Plan" ∧
      twin.fieldsOf? "demo.Plan" ≠ registry.fieldsOf? "demo.Plan" ∧
      (Config.sanitizeDocument { unknownFields := .keep } twin .empty ".demo.Account"
          document).result =
        (Config.sanitizeDocument { unknownFields := .keep } registry .empty "demo.Account"
          document).result := by
  intro registry twin document
  have spells : List.Forall₂ Written.Spells accounts accountsDotted := by decide
  have root : Schema.Spells "demo.Account" ".demo.Account" := by decide
  have plan : Schema.Spells "demo.Plan" "demo.Plan" := by decide
  obtain ⟨answers, sanitized⟩ := leading_dot_ignored spells
  exact ⟨spells, root, answers.fieldsOf? plan, by decide,
    ((sanitized { unknownFields := .keep } .empty).2 _ _ root document).1⟩

end Walker

end Redaction

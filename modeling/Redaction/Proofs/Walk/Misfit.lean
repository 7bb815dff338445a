import Redaction.Proofs.Walk.Reached
import Redaction.Sanitizer.Basic

/-!
# Values that the schema cannot describe

A value does not fit if its type is missing, if it is no message, list or map where one is needed,
or if it is a group without a single alternative. Where such values are taken out, all those that a
walk reaches are taken out and reported. Where unknown data is kept, values of missing types are
always reached, but a walk does not look for other misfits in the place of messages that it leaves
alone.
-/

namespace Redaction

open Schema Redaction.Tree

/-- Whether a value has the shape that is needed, or is missing or taken out. -/
def Tree.fits : Expectation → Tree → Bool
  | _, .null | _, .stripped | .object, .object _ | .list, .list _ | .map, .object _ => true
  | _, _ => false

/-- The problem that a value of a field has the wrong shape, if it has. -/
def Tree.misshape? (value : Tree) (message field : String) (expected : Expectation) :
    Option Problem :=
  if value.fits expected then none
  else some (.unexpectedShape message field expected value.shape)

/-- What is wrong with the value of a group, if anything is. -/
def Tree.groupFlaw? : Tree → Option GroupFlaw
  | .null | .stripped | .object [_] => none
  | .object [] => some .noAlternative
  | .object (_ :: _ :: _) => some .severalAlternatives
  | other => some (.shape other.shape)

/-- What holds several messages of a field. -/
def Schema.Cardinality.frame? : Cardinality → Option Expectation
  | .singular => none
  | .repeated => some .list
  | .map => some .map

/-- The problem with a value that does not fit what it has to be walked as. -/
def Schema.Registry.misfit? (registry : Registry) (policy : Policy) :
    Task → Tree → Option Problem
  | .root reference, _ =>
    if (registry.get? reference).isNone then some (.unknownType reference) else none
  | .message type owner, value =>
    value.misshape? type.name ((owner.map Field.name).getD "") .object
  | .field _ field, _ =>
    match registry.outlook policy field with
    | .missing typeName => some (.unknownType typeName)
    | .secret | .scalar | .message _ => none
  | .nested parent field _, value =>
    field.cardinality.frame?.bind (value.misshape? parent.name field.name)
  | .group parent group, value => value.groupFlaw?.map (.malformedOneof parent.name group)

namespace Walker

variable {walker : Walker} {task last : Task} {tree value : Tree} {path : List Step}
  {problem : Problem}

/-- A value of the wrong shape is left to the fallback. -/
theorem misshapen_of_misshape? {message field : String} {expected : Expectation}
    (wrong : value.misshape? message field expected = some problem) :
    walker.misshapen message field expected value = walker.fallBack problem value := by
  unfold misshape? at wrong
  split at wrong
  · cases wrong
  · next unfit =>
    obtain rfl := Option.some.inj wrong
    cases value with
    | null | stripped => exact absurd rfl unfit
    | _ => rfl

/-- A value that is no message is left to the fallback. -/
theorem walkMessage_of_misshape? {type : Message} {owner : Option Field}
    (wrong : value.misshape? type.name ((owner.map Field.name).getD "") .object = some problem) :
    walker.walkMessage type owner value = walker.fallBack problem value := by
  rw [← misshapen_of_misshape? wrong]
  refine walkWithin_of_members?_eq_none walker value.depth type owner ?_
  cases value with
  | object members => cases wrong
  | _ => rfl

/-- A value that is no list or map is left to the fallback. -/
theorem walkNested_of_misfit {enter : Enter} {parent type : Message} {field : Field}
    (wrong : walker.registry.misfit? walker.policy (.nested parent field type) value =
      some problem) :
    walker.walkNested enter parent field type value = walker.fallBack problem value := by
  rw [Registry.misfit?] at wrong
  unfold walkNested
  cases h : field.cardinality with
  | singular =>
    rw [h] at wrong
    cases wrong
  | repeated =>
    rw [h] at wrong
    rw [← misshapen_of_misshape? wrong]
    cases value with
    | list items => cases wrong
    | _ => rfl
  | map =>
    rw [h] at wrong
    rw [← misshapen_of_misshape? wrong]
    cases value with
    | object members => cases wrong
    | _ => rfl

/-- The value of a group without a single alternative is left to the fallback. -/
theorem walkGroup_of_groupFlaw? {enter : Enter} {parent : Message} {group : String}
    {flaw : GroupFlaw} (wrong : value.groupFlaw? = some flaw) :
    walker.walkGroup enter parent group value =
      some <$> walker.fallBack (.malformedOneof parent.name group flaw) value := by
  match value with
  | .null | .stripped | .object [_] => cases wrong
  | .object [] | .object (_ :: _ :: _) | .bool _ | .number _ | .string _ | .list _ =>
    obtain rfl := Option.some.inj wrong
    rfl

/-- A value that does not fit is left to the fallback. -/
theorem perform_of_misfit
    (misfit : walker.registry.misfit? walker.policy task value = some problem) :
    walker.perform task value = some <$> walker.fallBack problem value := by
  cases task with
  | root reference =>
    rw [Registry.misfit?] at misfit
    split at misfit
    · next missing =>
      obtain rfl := Option.some.inj misfit
      rw [perform, walkRoot, Option.isNone_iff_eq_none.mp missing]
    · cases misfit
  | message type owner => rw [perform, walkMessage_of_misshape? misfit]
  | field parent field =>
    rw [Registry.misfit?] at misfit
    split at misfit
    · next typeName missing =>
      obtain rfl := Option.some.inj misfit
      rw [perform, walkField_eq, missing]
    all_goals cases misfit
  | nested parent field type => rw [perform, walkNested_of_misfit misfit]
  | group parent group =>
    obtain ⟨flaw, wrong, rfl⟩ := Option.map_eq_some_iff.mp misfit
    exact walkGroup_of_groupFlaw? wrong

/-- A value with a missing type comes after no harmless type. -/
theorem not_clears_of_unknownType {registry : Registry} {policy : Policy} {typeName : String}
    (misfit : registry.misfit? policy task value = some (.unknownType typeName)) :
    ¬ registry.Clears policy task := by
  cases task with
  | root reference =>
    rw [Registry.misfit?] at misfit
    split at misfit
    · next missing =>
      rintro ⟨type, known, _⟩
      rw [known] at missing
      cases missing
    · cases misfit
  | message type owner =>
    rw [Registry.misfit?, misshape?] at misfit
    split at misfit <;> cases misfit
  | field parent field =>
    rw [Registry.misfit?] at misfit
    split at misfit
    · next missing => exact Registry.not_clears_of_missing missing
    all_goals cases misfit
  | nested parent field type =>
    obtain ⟨expected, _, wrong⟩ := Option.bind_eq_some_iff.mp misfit
    rw [misshape?] at wrong
    split at wrong <;> cases wrong
  | group parent group =>
    obtain ⟨flaw, _, wrong⟩ := Option.map_eq_some_iff.mp misfit
    cases wrong

/-- Where values that do not fit are taken out, a part that does not fit what the schema says about
it is taken out and reported: always, unless unknown data is kept; and also then if the walk reaches
the part, or if the type of the part is missing. -/
theorem misfit_taken_out (registry : Registry) (config : Config) (additional : AdditionalNames)
    (strips : config.fallback = .strip) (reference : String) (tree : Tree)
    (reached : (ofConfig registry config additional).thorough.Reaches (.root reference) tree path
      last value)
    (misfit : registry.misfit? ⟨config.secretSuffix, additional⟩ last value = some problem)
    (searched : config.unknownFields ≠ .keep ∨
      (ofConfig registry config additional).Reaches (.root reference) tree path last value ∨
      registry.Undotted ∧ ∃ typeName, problem = .unknownType typeName) :
    let redacted := config.redactTree registry additional reference tree
    redacted.result.part? path = some .stripped ∧ .fellBack problem .strip ∈ redacted.events := by
  intro redacted
  have entered :
      (ofConfig registry config additional).Reaches (.root reference) tree path last value := by
    rcases searched with removes | inside | ⟨undotted, typeName, rfl⟩
    · exact reached.of_thorough_ofConfig (.inl removes)
    · exact inside
    · exact reached.of_thorough_ofConfig (.inr ⟨undotted, not_clears_of_unknownType misfit⟩)
  have falls : (ofConfig registry config additional).perform last value =
      some <$> (ofConfig registry config additional).fallBack problem value :=
    perform_of_misfit misfit
  have strict : (ofConfig registry config additional).fallback = .strip := strips
  constructor
  · have done : ((ofConfig registry config additional).perform last value).value =
        some .stripped := by
      rw [falls, Walked.value_map, fallBack, strict]
    obtain ⟨whole, yields, here⟩ := entered.performed done
    obtain rfl := Option.some.inj yields
    exact here
  · have reported : problem ∈
        ((ofConfig registry config additional).perform last value).problems := by
      rw [falls, Walked.problems_map]
      exact List.mem_singleton.mpr rfl
    have met := entered.reported.subset reported
    rw [perform, Walked.problems_map] at met
    exact List.mem_map.mpr ⟨problem, met, by rw [strips]⟩

/-- A type with a secret, messages of a type without secrets and messages of a missing type. -/
def invoice : Message :=
  .ofDeclarations "shop.Invoice"
    [.field (.message "remark" ".shop.Remark"), .field (.message "parcel" "shop.Parcel"),
      .field (.secret (.scalar "card"))]

/-- A type without secrets. -/
def remark : Message := .ofDeclarations "shop.Remark" [.field (.scalar "text")]

/-- A message of a missing type is taken out and reported also where unknown data is kept. -/
theorem invoice_parcel_taken_out :
    let config : Config := { unknownFields := .keep }
    let tree : Tree := .object [("card", .string "4111"), ("parcel", .object [("weight", .null)])]
    let redacted := config.redactTree (.ofList [invoice, remark]) .empty "shop.Invoice" tree
    redacted.result.part? [.key "parcel"] = some .stripped ∧
      .fellBack (.unknownType "shop.Parcel") .strip ∈ redacted.events := by
  intro config tree
  let walker := ofConfig (.ofList [invoice, remark]) config .empty
  let field : Field := .message "parcel" "shop.Parcel"
  have opens : walker.thorough.Hands (.root "shop.Invoice") tree [] (.message invoice none) tree :=
    ⟨.root (by decide), rfl, trivial, trivial, rfl⟩
  have enters : walker.thorough.Hands (.message invoice none) tree [.key "parcel"]
      (.field invoice field) (.object [("weight", .null)]) :=
    ⟨.plain (show field ∈ invoice.plainFields by decide), rfl, ⟨by decide, by decide⟩, trivial,
      trivial⟩
  exact misfit_taken_out (.ofList [invoice, remark]) config .empty rfl "shop.Invoice" tree
    (.step opens (.step enters (.here _ _))) (by decide)
    (.inr (.inr ⟨by decide, "shop.Parcel", rfl⟩))

/-- Where unknown data is kept, a text in the place of a message without secrets stays and is not
reported. -/
theorem invoice_remark_stays :
    let config : Config := { unknownFields := .keep }
    let walker := ofConfig (.ofList [invoice, remark]) config .empty
    let field : Field := .message "remark" ".shop.Remark"
    let tree : Tree := .object [("card", .string "4111"), ("remark", .string "call")]
    let redacted := config.redactTree (.ofList [invoice, remark]) .empty "shop.Invoice" tree
    config.fallback = .strip ∧
      walker.thorough.Reaches (.root "shop.Invoice") tree [.key "remark"]
        (.message remark (some field)) (.string "call") ∧
      walker.registry.misfit? walker.policy (.message remark (some field)) (.string "call") =
        some (.unexpectedShape "shop.Remark" "remark" .object .string) ∧
      redacted.result.part? [.key "remark"] = some (.string "call") ∧ redacted.events = [] := by
  intro config walker field tree redacted
  have cleared : walker.cleared = ["shop.Remark"] := by
    have names : walker.registry.names = ["shop.Invoice", "shop.Remark"] := by decide
    have known : walker.registry.get? "shop.Invoice" = some invoice := by decide
    have secret : walker.registry.mayContainSensitive walker.policy "shop.Invoice" = true :=
      Registry.mayContainSensitive_of_secret known
        (show Field.secret (.scalar "card") ∈ invoice.fields by decide) (by decide)
    have clear : walker.registry.mayContainSensitive walker.policy "shop.Remark" = false :=
      Registry.mayContainSensitive_eq_false_iff.mpr ⟨remark, by decide,
        Registry.harmless_of_closed (List.forall_mem_singleton.mpr
          ⟨remark, by decide, by decide, by decide⟩) (List.mem_singleton.mpr rfl)⟩
    change walker.registry.cleared walker.policy = _
    rw [Registry.cleared, names, List.filter_cons, secret, List.filter_cons, clear]
    rfl
  have same : walker = { walker with cleared := ["shop.Remark"] } := by rw [← cleared]
  have walked : walker.walkRoot "shop.Invoice" tree =
      pure (.object [("card", .stripped), ("remark", .string "call")]) := by
    rw [same]
    decide
  have opens : walker.thorough.Hands (.root "shop.Invoice") tree [] (.message invoice none) tree :=
    ⟨.root (by decide), rfl, trivial, trivial, rfl⟩
  have enters : walker.thorough.Hands (.message invoice none) tree [.key "remark"]
      (.field invoice field) (.string "call") :=
    ⟨.plain (show field ∈ invoice.plainFields by decide), rfl, ⟨by decide, by decide⟩, trivial,
      trivial⟩
  have resolves : walker.thorough.Hands (.field invoice field) (.string "call") []
      (.nested invoice field remark) (.string "call") :=
    ⟨.messages (Registry.outlook_eq_message_iff.mpr (by decide)), rfl, trivial, trivial, rfl⟩
  have holds : walker.thorough.Hands (.nested invoice field remark) (.string "call") []
      (.message remark (some field)) (.string "call") :=
    ⟨.single rfl, rfl, trivial, trivial, rfl⟩
  refine ⟨rfl, .step opens (.step enters (.step resolves (.step holds (.here _ _)))), by decide,
    ?_, ?_⟩
  · change (walker.walkRoot "shop.Invoice" tree).value.part? _ = _
    rw [walked]
    rfl
  · change (walker.walkRoot "shop.Invoice" tree).problems.map _ = _
    rw [walked]
    rfl

end Walker

end Redaction

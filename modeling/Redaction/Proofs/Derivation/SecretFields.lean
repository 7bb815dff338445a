import Redaction.Catalogue.Basic
import Redaction.Proofs.Derivation.Declares
import Redaction.Proofs.Walk.Sealed

/-!
# Secret fields of derived message types

The value of a field that is marked as secret, or whose name is secret, is taken out of the messages
of a derived type, whatever it holds and under every configuration. A secret group is weaker: its
mark is passed on to the alternatives, so a malformed value and an undeclared alternative escape
where the configuration lets pass what the schema does not describe.
-/

namespace Redaction.Derivation

open Schema (Declaration Field Message Registry)
open Schema.Registry (Dotted)

section Derived

variable {item : Item} {impl : MessageImpl} {fields : List NamedField}
  {declarations : List Declaration} {registry : Registry} {reference : String}
  (accepted : deriveMessage item = .ok impl) (word : '.' ∉ item.ident.toList)
  (body : item.body = .struct (.named fields))
  (declares : List.Forall₂ BuilderCall.Declares impl.calls declarations)
  (known : registry.get? reference = some (.ofDeclarations impl.typeName declarations))

include accepted in
/-- The keys of the calls of an implementation are distinct, and each field that is not left out has
a call. -/
theorem distinct_and_described (body : item.body = .struct (.named fields)) :
    (impl.calls.map BuilderCall.name).Nodup ∧
      ∀ field ∈ fields, ∀ options, FieldOptions.ofAttributes field.attributes = .ok options →
        options.skip = false → ∃ call ∈ impl.calls, Describes field options call := by
  obtain ⟨_, given, _, same, described, _, _⟩ := deriveMessage_eq_ok accepted
  obtain rfl := Fields.named.inj (ItemBody.struct.inj (body.symm.trans same))
  obtain ⟨_, distinct, _, each⟩ := describeFields_spec described
  exact ⟨distinct, fun field member options read included =>
    exists_describes each member read included⟩

include accepted word in
/-- The name of a derived type keeps no dot. -/
theorem not_dotted_name :
    ¬ Dotted (Message.ofDeclarations impl.typeName declarations).name := by
  have plain := not_dotted_of_deriveMessage accepted word
  rwa [(Message.ofDeclarations_spec impl.typeName declarations).1,
    Schema.Registry.withoutDot_eq_self plain]

include accepted word body declares known

/-- Nothing shows in the value of a plain field that is marked as secret or has a secret name. Of a
group that is marked as secret, or has only alternatives that are, exactly those values show that
escape: malformed ones where fallbacks let pass, and undeclared alternatives where unknown data is
kept. -/
theorem secret_fields_show_nothing (config : Config) (additional : AdditionalNames)
    (members : List (String × Tree)) {field : NamedField} (declared : field ∈ fields)
    {options : FieldOptions} (read : FieldOptions.ofAttributes field.attributes = .ok options)
    (included : options.skip = false) :
    let type := Message.ofDeclarations impl.typeName declarations
    let policy : Policy := ⟨config.secretSuffix, additional⟩
    let key := options.key field
    let result := (config.redactTree registry additional reference (.object members)).result
    (options.kind ≠ some .oneof → options.secret = true ∨ policy.matchesName key = true →
      ∀ path leaf, ¬ result.Shows (.key key :: path) leaf) ∧
    (options.kind = some .oneof → (config.unknownFields = .keep → type.alternatives key ≠ []) →
      options.secret = true ∨
        (∀ alternative ∈ type.alternatives key, policy.isSensitive alternative = true) →
      ∀ path leaf, result.Shows (.key key :: path) leaf ↔
        ∃ value, (key, value) ∈ members ∧ value.Shows path leaf ∧
          (Walker.ofConfig registry config additional).Escapes type key value) := by
  intro type policy key result
  obtain ⟨distinct, described⟩ := distinct_and_described accepted body
  obtain ⟨call, present, describes⟩ := described field declared options read included
  have member := Schema.Registry.mem_of_get?_eq_some known
  have plain : ¬ Dotted type.name := not_dotted_name accepted word
  have enters := (Walker.ofConfig registry config additional).redacts_enterMessage
  constructor
  · intro single secret path leaf shows
    cases describes with
    | group grouped => exact single grouped
    | field _ chosen =>
      obtain ⟨own, listed, named, marked⟩ :=
        exists_plainField_of_mem impl.typeName declares present
      have hidden : policy.isSensitive own = true := by
        rw [Policy.isSensitive, named, marked]
        exact Bool.or_eq_true_iff.mpr secret
      have entered := Walker.skips_eq_false_of_secret config additional member plain fun _ =>
        ⟨own, List.mem_of_mem_filter listed, hidden⟩
      obtain ⟨value, _, kept, becomes, shows⟩ :=
        (Walker.shows_redactTree_iff known entered).mp shows
      have taken := Walker.fate_of_secret enters listed hidden value
      rw [named] at taken
      obtain rfl := Option.some.inj (taken.symm.trans becomes)
      exact Tree.not_shows_stripped shows
  · intro grouped inhabited secret path leaf
    cases describes with
    | field single => exact absurd grouped single
    | group _ one =>
      have listed := mem_groups_of_mem impl.typeName declares present
      have alone := claimants_of_mem impl.typeName declares distinct present
      have hidden : ∀ alternative ∈ type.alternatives key,
          policy.isSensitive alternative = true := by
        intro alternative chosen
        rcases secret with mark | names
        · rw [mark] at present
          have marked :=
            sensitive_of_mem_alternatives impl.typeName declares distinct present chosen
          exact Bool.or_eq_true_iff.mpr (.inl marked)
        · exact names alternative chosen
      have entered := Walker.skips_eq_false_of_secret config additional member plain fun keeps => by
        obtain ⟨alternative, chosen⟩ := List.exists_mem_of_ne_nil _ (inhabited keeps)
        exact ⟨alternative, List.mem_of_mem_filter chosen, hidden alternative chosen⟩
      rw [Walker.shows_redactTree_iff known entered]
      refine exists_congr fun value => and_congr_right fun _ => ?_
      rw [Walker.fate_of_group listed alone value]
      exact Walker.shows_walkGroup_iff hidden

end Derived

/-- The declaration of a secret field. -/
def pin : NamedField := Catalogue.field "pin" Catalogue.string [Catalogue.mark "secret"]

/-- The declaration of a secret group. -/
def proof : NamedField :=
  Catalogue.field "proof" (.named "Proof") [Catalogue.mark "oneof", Catalogue.mark "secret"]

/-- The declaration of a message type with a secret field and a secret group. -/
def login : Item := Catalogue.message "Login" [] [pin, proof]

/-- What is derived from the declaration of a login. -/
def loginImpl : MessageImpl where
  ident := "Login"
  typeName := "Login"
  calls := [.field { name := "pin", kind := .scalar, cardinality := .singular, secret := true },
    .oneof "proof" (.named "Proof") true]
  registrations := [.alternatives (.named "Proof")]

/-- What the calls declare if a proof is a password. -/
def loginDeclarations : List Declaration :=
  [.field (Field.scalar "pin").secret, .oneof "proof" [(Field.scalar "password").secret]]

/-- Neither the pin, in the form of an object, nor the password shows, even where unknown data is
kept and fallbacks let pass. -/
theorem login_shows_nothing :
    let config : Config := { unknownFields := .keep, fallback := .passthrough }
    let registry := Registry.ofList [.ofDeclarations "Login" loginDeclarations]
    let members := [("pin", Tree.object [("digits", .string "1234")]),
      ("proof", .object [("password", .string "hunter2")])]
    let result := (config.redactTree registry .empty "Login" (.object members)).result
    deriveMessage login = .ok loginImpl ∧
      (∀ path leaf, ¬ result.Shows (.key "pin" :: path) leaf) ∧
      ∀ path leaf, ¬ result.Shows (.key "proof" :: path) leaf := by
  intro config registry members result
  have accepted : deriveMessage login = .ok loginImpl := by cbv
  have declares : List.Forall₂ BuilderCall.Declares loginImpl.calls loginDeclarations :=
    .cons (.field .scalar) (.cons (.oneof "proof" _ true [.scalar "password"]) .nil)
  have known : registry.get? "Login" = some (.ofDeclarations "Login" loginDeclarations) := by decide
  have first : pin ∈ [pin, proof] := List.mem_cons_self
  have second : proof ∈ [pin, proof] := List.mem_cons_of_mem _ List.mem_cons_self
  have plain := secret_fields_show_nothing accepted (by decide) rfl declares known config .empty
    members first rfl rfl
  have grouped := secret_fields_show_nothing accepted (by decide) rfl declares known config .empty
    members second rfl rfl
  refine ⟨accepted, plain.1 (by decide) (.inl rfl), fun path leaf shows => ?_⟩
  obtain ⟨value, present, _, escapes⟩ :=
    (grouped.2 rfl (fun _ => by decide) (.inl rfl) path leaf).mp shows
  have only : value = .object [("password", .string "hunter2")] := by
    have named : FieldOptions.key { secret := true, kind := some .oneof } proof = "proof" := rfl
    simpa [members, named] using present
  subst only
  rcases escapes with ⟨malformed, _⟩ | ⟨_, active, inner, same, unknown⟩
  · cases malformed
  · obtain ⟨rfl, rfl⟩ := Prod.mk.inj (List.singleton_injective (Tree.object.inj same))
    exact absurd unknown (by decide)

/-- An alternative of a secret group that is not declared shows where unknown data is kept, and a
text in the place of the group shows where fallbacks let pass. -/
theorem login_proof_shows :
    let registry := Registry.ofList [.ofDeclarations "Login" loginDeclarations]
    let options : FieldOptions := { secret := true, kind := some .oneof }
    deriveMessage login = .ok loginImpl ∧
      List.Forall₂ BuilderCall.Declares loginImpl.calls loginDeclarations ∧
      FieldOptions.ofAttributes proof.attributes = .ok options ∧
      (Config.redactTree { unknownFields := .keep } registry .empty "Login"
          (.object [("proof", .object [("token", .string "hunter2")])])).result.Shows
        [.key "proof", .key "token"] (.string "hunter2") ∧
      (Config.redactTree { fallback := .passthrough } registry .empty "Login"
          (.object [("proof", .string "hunter2")])).result.Shows
        [.key "proof"] (.string "hunter2") := by
  intro registry options
  have accepted : deriveMessage login = .ok loginImpl := by cbv
  have declares : List.Forall₂ BuilderCall.Declares loginImpl.calls loginDeclarations :=
    .cons (.field .scalar) (.cons (.oneof "proof" _ true [.scalar "password"]) .nil)
  have known : registry.get? "Login" = some (.ofDeclarations "Login" loginDeclarations) := by decide
  have member := Schema.Registry.mem_of_get?_eq_some known
  refine ⟨accepted, declares, rfl, ?_, ?_⟩
  · let kept : Config := { unknownFields := .keep }
    have entered := Walker.skips_eq_false_of_secret kept .empty member (by decide) fun _ =>
      ⟨(Field.scalar "pin").secret, by decide, by decide⟩
    have listed : "proof" ∈ (Message.ofDeclarations "Login" loginDeclarations).groups := by decide
    refine (Walker.shows_redactTree_iff known entered).mpr ⟨_, List.mem_singleton.mpr rfl, ?_⟩
    rw [Walker.fate_of_group listed (by decide)]
    exact ⟨_, rfl, .member (List.mem_singleton.mpr rfl) (.leaf rfl)⟩
  · have walked : (Config.redactTree { fallback := .passthrough } registry .empty "Login"
        (.object [("proof", .string "hunter2")])).result =
          .object [("proof", .string "hunter2")] := by decide
    rw [walked]
    exact .member (List.mem_singleton.mpr rfl) (.leaf rfl)

end Redaction.Derivation

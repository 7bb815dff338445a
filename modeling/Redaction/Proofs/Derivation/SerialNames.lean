import Redaction.Proofs.Derivation.Chosen

/-!
# Names of variants in serialized values

A serializer that is told to write variants in lower case, with underscores between the words, has a
rule of its own: it puts an underscore in front of each upper-case character that is not the first,
and lower-cases the letters of the ASCII alphabet only. The derived name of a variant is lower-cased
by the rules for all alphabets. So the two names are one exactly if the name of the variant has no
capital of another alphabet. Then a secret variant is taken out wherever it arrives. Otherwise its
key is that of no alternative, unless another variant has it, and where unknown data is kept the
variant stays.
-/

namespace Redaction.Derivation

open Text (isUppercase lowerChar)

/-- Whether a character is upper-case, lies outside the ASCII alphabet and has another form in lower
case. -/
def IsForeignCapital (c : Char) : Prop :=
  isUppercase c = true ∧ 0x80 ≤ c.toNat ∧ lowerChar c ≠ [c]

instance : DecidablePred IsForeignCapital := fun c =>
  inferInstanceAs (Decidable (isUppercase c = true ∧ 0x80 ≤ c.toNat ∧ lowerChar c ≠ [c]))

/-- The characters of a name as a serializer writes them: letters of the ASCII alphabet in lower
case, and an underscore in front of each upper-case character that is not the first of the name. -/
def serialChars : Bool → List Char → List Char
  | _, [] => []
  | first, c :: rest =>
    (if !first && isUppercase c then ['_'] else []) ++ c.toLower :: serialChars false rest

/-- The name under which a serializer writes a variant. -/
def serialName (name : String) : String := String.ofList (serialChars true name.toList)

section Characters

variable {c : Char}

/-- In the ASCII alphabet both rules of case are one. -/
theorem lowered_of_ascii (ascii : c.toNat < 0x80) :
    (if isUppercase c then lowerChar c else [c]) = [c.toLower] := by
  have table : ∀ code < 0x80,
      (if isUppercase (Char.ofNat code) then lowerChar (Char.ofNat code) else [Char.ofNat code]) =
        [(Char.ofNat code).toLower] := by decide +kernel
  have own := table c.toNat ascii
  rwa [Char.ofNat_toNat] at own

/-- Characters outside the ASCII alphabet stay as they are. -/
theorem toLower_of_foreign (foreign : 0x80 ≤ c.toNat) : c.toLower = c := by
  refine dif_neg fun capital => ?_
  have bounds : 0x41 ≤ c.toNat ∧ c.toNat ≤ 0x5A := capital
  omega

/-- A character that is not upper-case stays as it is. -/
theorem toLower_of_not_uppercase (small : isUppercase c = false) : c.toLower = c := by
  by_cases ascii : c.toNat < 0x80
  · have own := lowered_of_ascii ascii
    rw [small, if_neg Bool.false_ne_true] at own
    exact (List.singleton_inj.mp own).symm
  · exact toLower_of_foreign (Nat.le_of_not_lt ascii)

/-- An upper-case character has one form in both rules, unless it is a foreign capital. -/
theorem lowerChar_of_not_foreign (capital : isUppercase c = true) (own : ¬ IsForeignCapital c) :
    lowerChar c = [c.toLower] := by
  by_cases ascii : c.toNat < 0x80
  · have both := lowered_of_ascii ascii
    rwa [if_pos capital] at both
  · have foreign : 0x80 ≤ c.toNat := Nat.le_of_not_lt ascii
    rw [toLower_of_foreign foreign]
    exact not_not.mp fun other => own ⟨capital, foreign, other⟩

/-- The lower-case form of a foreign capital starts with another character. -/
theorem IsForeignCapital.exists_cons (capital : IsForeignCapital c) :
    ∃ d rest, lowerChar c = d :: rest ∧ d ≠ c.toLower := by
  obtain ⟨_, foreign, other⟩ := capital
  rw [toLower_of_foreign foreign]
  unfold lowerChar at other ⊢
  split at other
  · next dotted =>
    rw [if_pos dotted]
    refine ⟨_, _, rfl, ?_⟩
    rintro rfl
    exact absurd dotted (by decide)
  · next plain =>
    rw [if_neg plain]
    exact ⟨_, [], rfl, fun same => other (congrArg ([·]) same)⟩

end Characters

/-- The two rules write a name in the same way exactly if it has no foreign capital. -/
theorem snakeChars_eq_iff (first : Bool) (name : List Char) :
    snakeChars first name = serialChars first name ↔ ∀ c ∈ name, ¬ IsForeignCapital c := by
  induction name generalizing first with
  | nil => exact iff_of_true rfl (List.forall_mem_nil _)
  | cons c rest ih =>
    rw [List.forall_mem_cons, ← ih false, snakeChars, serialChars]
    cases capital : isUppercase c with
    | false =>
      have own : ¬ IsForeignCapital c := fun foreign =>
        Bool.false_ne_true (capital.symm.trans foreign.1)
      rw [toLower_of_not_uppercase capital]
      simp [own]
    | true =>
      have mark : (if !first && true then ['_'] else []) = if first then [] else ['_'] := by
        cases first <;> rfl
      rw [if_pos rfl, mark, List.append_assoc, List.append_cancel_left_eq]
      by_cases foreign : IsForeignCapital c
      · obtain ⟨d, others, form, different⟩ := foreign.exists_cons
        rw [form, List.cons_append]
        exact iff_of_false (fun same => different (List.cons.inj same).1) fun both => both.1 foreign
      · rw [lowerChar_of_not_foreign capital foreign, List.singleton_append, List.cons_inj_right]
        exact (and_iff_right foreign).symm

/-- The derived name of a variant is the one that serializers write, exactly if it has no foreign
capital. -/
theorem snakeCase_eq_iff {name : String} :
    snakeCase name = serialName name ↔ ∀ c ∈ name.toList, ¬ IsForeignCapital c := by
  rw [snakeCase, serialName, String.ofList_inj, snakeChars_eq_iff]

/-- The key under which a serializer writes a variant that has no name of its own. -/
def Variant.serialKey (variant : Variant) : String := serialName (plainIdent variant.ident)

/-- Whether the name of a variant has no foreign capital. -/
def Variant.IsPlain (variant : Variant) : Prop :=
  ∀ c ∈ (plainIdent variant.ident).toList, ¬ IsForeignCapital c

instance (variant : Variant) : Decidable variant.IsPlain :=
  List.decidableBAll (fun c => ¬ IsForeignCapital c) _

/-- A variant without a name of its own is written under its derived name, exactly if it is
plain. -/
theorem Variant.key_eq_serialKey_iff {variant : Variant} {options : FieldOptions}
    (read : FieldOptions.ofAttributes variant.attributes = .ok options)
    (unnamed : options.name = none) : variant.key = variant.serialKey ↔ variant.IsPlain := by
  rw [Variant.key_eq read, FieldOptions.alternativeKey, unnamed]
  exact snakeCase_eq_iff

/-- An alternative is secret if its variant is marked so. -/
theorem Variant.Describes.secret_eq {variant : Variant} {call : FieldCall} {options : FieldOptions}
    (describes : variant.Describes call)
    (read : FieldOptions.ofAttributes variant.attributes = .ok options) :
    call.secret = options.secret := by
  cases describes with
  | alternative _ again =>
    obtain rfl := Except.ok.inj (read.symm.trans again)
    rfl

open Schema (Field Message Registry)

/-- A message type of a family that is derived from a program has a field for a group, which has
these variants. -/
structure Program.Offers (program : Program) (family : Family) (message : Message)
    (field : NamedField) (options : FieldOptions) (variants : List Variant) : Prop where
  /-- The program is accepted. -/
  accepted : Family.derive program.messages program.oneofs program.meaning = .ok family
  /-- The message type is derived from a declaration with the field, whose type means a declared
  group there. -/
  declared : ∃ item impl group, deriveMessage item = .ok impl ∧
    family.description? impl = some message ∧ field ∈ item.namedFields ∧
    program.oneof? item.path field.type.shape.element = some group ∧ group.body = .enum variants
  /-- The options of the field are readable. -/
  read : FieldOptions.ofAttributes field.attributes = .ok options
  /-- They say that it holds a group. -/
  grouped : options.kind = some .oneof
  /-- The field is not left out. -/
  included : options.skip = false

namespace Program.Offers

variable {program : Program} {family : Family} {message : Message} {field : NamedField}
  {options : FieldOptions} {variants : List Variant}
  (offers : program.Offers family message field options variants)

include offers

/-- Nothing but the group claims the key of the field, and each variant has the alternative that is
derived from it. -/
theorem exists_alternative {variant : Variant} (among : variant ∈ variants) :
    field.key ∈ message.groups ∧ message.claimants field.key = [] ∧
      ∃ site call own, variant.Describes call ∧ family.field? site call = some own ∧
        message.alternative? field.key variant.key =
          some ((if options.secret then own.secret else own).inGroup field.key) := by
  obtain ⟨accepted, ⟨_, _, _, made, described, member, meant, body⟩, read, grouped, included⟩ :=
    offers
  obtain ⟨listed, alone, derived, call, own, _, _, describes, stands, known⟩ :=
    Family.exists_alternative_of_meant accepted made described member read grouped included meant
      body among
  exact ⟨listed, alone, derived.path, call, own, describes, stands, known⟩

/-- A plain variant without a name of its own has an alternative under the key that serializers
write, which is secret if the variant or the field is. -/
theorem exists_alternative_of_isPlain {variant : Variant} (among : variant ∈ variants)
    {own : FieldOptions} (readable : FieldOptions.ofAttributes variant.attributes = .ok own)
    (unnamed : own.name = none) (plain : variant.IsPlain) :
    ∃ alternative, message.alternative? field.key variant.serialKey = some alternative ∧
      alternative.sensitive = (options.secret || own.secret) := by
  obtain ⟨_, _, _, call, field, describes, stands, known⟩ := offers.exists_alternative among
  rw [(Variant.key_eq_serialKey_iff readable unnamed).mpr plain] at known
  refine ⟨_, known, ?_⟩
  obtain ⟨kind, _, done⟩ := Option.bind_eq_some_iff.mp stands
  obtain rfl := Option.some.inj done
  rw [← describes.secret_eq readable]
  cases options.secret <;> rfl

/-- A key that no variant has is that of no alternative. -/
theorem alternative?_eq_none {key : String} (unused : ∀ variant ∈ variants, variant.key ≠ key) :
    message.alternative? field.key key = none := by
  obtain ⟨accepted, ⟨_, _, _, made, described, member, meant, body⟩, read, grouped, included⟩ :=
    offers
  refine List.find?_eq_none.mpr fun own declared same => ?_
  obtain ⟨variant, among, name⟩ := Family.exists_variant_of_alternative accepted made described
    member read grouped included meant body declared
  exact unused variant among (name.trans (beq_iff_eq.mp same))

end Program.Offers

/-- Variants are known by the names that serializers write, exactly if they are plain. Whatever the
identifier of a variant is, its derived name is the one that serializers write, exactly if it has no
foreign capital; and if the variant has no name of its own, this is the name of the alternative that
is derived from it. Let a derived message type offer such a variant, and let the schema lead to a
message that has the variant, in any configuration. If the variant is plain, its key is that of an
alternative, and if the variant or the field is secret, its value is taken out. If its key is that
of no variant, as that of a variant that is not plain is unless another one takes the key, it is
unknown, and where unknown data is kept it stays as it is. -/
theorem variants_known_by_serial_names (variant : Variant) :
    (snakeCase (plainIdent variant.ident) = variant.serialKey ↔ variant.IsPlain) ∧
    ∀ own, FieldOptions.ofAttributes variant.attributes = .ok own → own.name = none →
      (∀ item impl variants, deriveOneof item = .ok impl → item.body = .enum variants →
        variant ∈ variants →
        ∃ call ∈ impl.alternatives, variant.Describes call ∧ call.secret = own.secret ∧
          (call.name = variant.serialKey ↔ variant.IsPlain)) ∧
      ∀ (program : Program) family message field options variants,
        program.Offers family message field options variants → variant ∈ variants →
        ∀ registry config additional reference whole path owner tree value,
          registry.Undotted →
          (Walker.ofConfig registry config additional).thorough.Reaches (.root reference) whole
            path (.message message owner) tree →
          tree.part? [.key field.key] = some (.object [(variant.serialKey, value)]) →
          let result := (config.redactTree registry additional reference whole).result
          (variant.IsPlain →
            ∃ alternative, message.alternative? field.key variant.serialKey = some alternative ∧
              alternative.sensitive = (options.secret || own.secret) ∧
              (options.secret || own.secret →
                result.part? (path ++ [.key field.key]) =
                  some (.object [(variant.serialKey, .stripped)]))) ∧
          ((∀ other ∈ variants, other.key ≠ variant.serialKey) →
            message.alternative? field.key variant.serialKey = none ∧
              (config.unknownFields = .keep →
                result.part? (path ++ [.key field.key]) =
                  some (.object [(variant.serialKey, value)]))) := by
  refine ⟨snakeCase_eq_iff, fun own readable unnamed => ⟨?_, ?_⟩⟩
  · intro item impl variants made body among
    obtain ⟨_, like, described, _⟩ := deriveOneof_eq_ok made
    obtain rfl := ItemBody.enum.inj (body.symm.trans like)
    obtain ⟨call, listed, describes⟩ :=
      exists_counterpart (describeVariants_spec described).2.2.2 among
    refine ⟨call, listed, describes, describes.secret_eq readable, ?_⟩
    rw [describes.name_eq]
    exact Variant.key_eq_serialKey_iff readable unnamed
  · intro program family message field options variants offers among registry config additional
      reference whole path owner tree value undotted reached found result
    obtain ⟨listed, alone, _⟩ := offers.exists_alternative among
    have arrives := reached.toGroup listed alone found
    refine ⟨fun plain => ?_, fun unused => ?_⟩
    · obtain ⟨alternative, known, secret⟩ :=
        offers.exists_alternative_of_isPlain among readable unnamed plain
      refine ⟨alternative, known, secret, fun marked => ?_⟩
      let walker := Walker.ofConfig registry config additional
      have sensitive : walker.policy.isSensitive alternative = true := by
        rw [Policy.isSensitive, secret, marked, Bool.true_or]
      have hidden : walker.walkField walker.enterMessage message alternative value =
          pure .stripped := if_pos sensitive
      refine (arrives.part?_of_alternative undotted known).trans ?_
      rw [hidden, Walked.value_pure]
    · have unknown := offers.alternative?_eq_none unused
      exact ⟨unknown, fun keeps => arrives.part?_of_unknown_alternative keeps unknown⟩

section Bakery

open Catalogue

/-- The field of an order. -/
def orderField : NamedField := Catalogue.field "treat" (optional (.named "Treat")) [mark "oneof"]

/-- The declaration of an order, which may be for a treat. -/
def order : Item := Catalogue.message "Order" [] [orderField]

/-- A secret treat with foreign letters, none of which is a capital. -/
def brulee : Variant := alternative "CrèmeBrûlée" string [mark "secret"]

/-- A secret treat that starts with a foreign capital. -/
def eclair : Variant := alternative "Éclair" string [mark "secret"]

/-- The declaration of a treat. -/
def pastry : Item := Catalogue.group "Treat" [brulee, eclair]

/-- The program of orders. -/
def bakery : Program where
  messages := [order]
  oneofs := [pastry]

/-- What is derived from the declaration of an order. -/
def orderImpl : MessageImpl where
  ident := "Order"
  typeName := "Order"
  calls := [.oneof "treat" (.named "Treat") false]
  registrations := [.alternatives (.named "Treat")]

/-- What is derived from the declaration of a treat. -/
def treatImpl : OneofImpl where
  ident := "Treat"
  alternatives :=
    [{ name := "crème_brûlée", kind := .scalar, cardinality := .singular, secret := true },
      { name := "éclair", kind := .scalar, cardinality := .singular, secret := true }]
  registrations := []

/-- The family of orders. -/
def bakeryFamily : Family where
  messages := [orderImpl]
  oneofs := [treatImpl]

/-- The description of an order. -/
def orderType : Message :=
  .ofDeclarations "Order"
    [.oneof "treat"
      [Field.secret (Field.scalar "crème_brûlée"), Field.secret (Field.scalar "éclair")]]

/-- The data of an order. -/
def orderData (variant : Variant) (note : String) : Serial.Data :=
  order.record [.present (.labelled variant.serialKey (.json (.string note)))]

/-- The tree of an order. -/
def orderTree (key note : String) : Tree := .object [("treat", .object [(key, .string note)])]

/-- An order may be for either treat. -/
theorem bakery_offers :
    bakery.Offers bakeryFamily orderType orderField { kind := some .oneof } [brulee, eclair] where
  accepted := by with_unfolding_all rfl
  declared := ⟨order, orderImpl, pastry, by with_unfolding_all rfl, by decide, List.mem_cons_self,
    by with_unfolding_all rfl, rfl⟩
  read := rfl
  grouped := rfl
  included := rfl

/-- What is derived from the declaration of a treat has both its variants. -/
theorem pastry_derived : deriveOneof pastry = .ok treatImpl := by with_unfolding_all rfl

/-- The keys under which serializers write the treats. -/
theorem pastry_keys : brulee.serialKey = "crème_brûlée" ∧ eclair.serialKey = "Éclair" := by
  decide +kernel

/-- The schema of orders leads to an order. -/
theorem order_reached (key note : String) :
    (Walker.ofConfig (.ofList [orderType]) { unknownFields := .keep } .empty).thorough.Reaches
      (.root "Order") (orderTree key note) [] (.message orderType none) (orderTree key note) :=
  let walker := Walker.ofConfig (.ofList [orderType]) { unknownFields := .keep } .empty
  have hands : walker.thorough.Hands (.root "Order") (orderTree key note) []
      (.message orderType none) (orderTree key note) :=
    ⟨.root (by decide), rfl, trivial, trivial, rfl⟩
  .step hands (.here _ _)

/-- Where unknown data is kept, the one treat is taken out of an order and the other one stays. -/
theorem treats_arrive :
    let redacted (key : String) : Tree :=
      (Config.redactTree { unknownFields := .keep } (.ofList [orderType]) .empty "Order"
        (orderTree key "for two")).result
    (∃ call ∈ treatImpl.alternatives, eclair.Describes call ∧ call.secret = true ∧
        (call.name = eclair.serialKey ↔ eclair.IsPlain)) ∧
      (redacted "crème_brûlée").part? [.key "treat"] =
        some (.object [("crème_brûlée", .stripped)]) ∧
      (redacted "Éclair").part? [.key "treat"] =
        some (.object [("Éclair", .string "for two")]) := by
  obtain ⟨written, capital⟩ := pastry_keys
  have group : orderField.key = "treat" := by decide
  have holds : ∀ key, (orderTree key "for two").part? [.key orderField.key] =
      some (.object [(key, .string "for two")]) := fun _ => by
    rw [group]
    rfl
  have first : brulee ∈ [brulee, eclair] := List.mem_cons_self
  have second : eclair ∈ [brulee, eclair] := List.mem_cons_of_mem _ List.mem_cons_self
  obtain ⟨_, plainly⟩ := variants_known_by_serial_names brulee
  obtain ⟨_, plain⟩ := plainly { secret := true } (by decide) rfl
  obtain ⟨_, otherwise⟩ := variants_known_by_serial_names eclair
  obtain ⟨derived, foreign⟩ := otherwise { secret := true } (by decide) rfl
  refine ⟨derived pastry treatImpl _ pastry_derived rfl second, ?_, ?_⟩
  · obtain ⟨known, _⟩ := plain bakery _ _ _ _ _ bakery_offers first (.ofList [orderType])
      { unknownFields := .keep } .empty "Order" _ [] none _ _ (by decide)
      (order_reached brulee.serialKey "for two") (holds brulee.serialKey)
    obtain ⟨_, _, _, taken⟩ := known (by decide +kernel)
    have result := taken rfl
    rwa [written] at result
  · obtain ⟨_, unknown⟩ := foreign bakery _ _ _ _ _ bakery_offers second (.ofList [orderType])
      { unknownFields := .keep } .empty "Order" _ [] none _ _ (by decide)
      (order_reached eclair.serialKey "for two") (holds eclair.serialKey)
    have unused : ∀ other ∈ [brulee, eclair], other.key ≠ eclair.serialKey := by decide +kernel
    have result := (unknown unused).2 rfl
    rwa [capital] at result

/-- A name with a foreign capital is written in another way than it is derived. The treat is secret,
but the key under which it arrives is that of no alternative, and where unknown data is kept it
stays. -/
theorem eclair_escapes :
    snakeCase (plainIdent "Éclair") = "éclair" ∧ serialName (plainIdent "Éclair") = "Éclair" ∧
      deriveOneof pastry = .ok treatImpl ∧
      bakery.Offers bakeryFamily orderType orderField { kind := some .oneof } [brulee, eclair] ∧
      (orderData eclair "for two").toTree = .ok (orderTree "Éclair" "for two") ∧
      (Config.redactTree { unknownFields := .keep } (.ofList [orderType]) .empty "Order"
          (orderTree "Éclair" "for two")).result.part? [.key "treat"] =
        some (.object [("Éclair", .string "for two")]) := by
  have listed : "treat" ∈ orderType.groups := by decide
  have alone : orderType.claimants "treat" = [] := by decide
  have unknown : orderType.alternative? "treat" "Éclair" = none := by decide
  have arrives := (order_reached "Éclair" "for two").toGroup listed alone rfl
  exact ⟨by decide +kernel, by decide +kernel, pastry_derived, bakery_offers, by decide +kernel,
    arrives.part?_of_unknown_alternative rfl unknown⟩

end Bakery

end Redaction.Derivation

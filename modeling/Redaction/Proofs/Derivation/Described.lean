import Redaction.Derivation.Family
import Redaction.Proofs.Derivation.OptionSet
import Redaction.Proofs.Fallible
import Redaction.Proofs.Schema.Reachable

/-!
# What a derived message type describes

If a message type is derived from a struct, each field of the struct has readable options, and one
that is not left out has a call of its own: that of a field, or of a group where the field is chosen
to be one. The keys of the calls are distinct, the registrations go with the calls, and the name of
the type keeps no dot.
-/

namespace Redaction.Derivation

open Schema (Cardinality)
open Schema.Registry (Dotted)

/-- The key of a message that a call describes. -/
def BuilderCall.name : BuilderCall → String
  | .field call => call.name
  | .oneof group _ _ => group

/-- The registrations that go with a call. -/
def BuilderCall.registrations : BuilderCall → List Registration
  | .field call => call.messageType?.toList.map .message
  | .oneof _ type _ => [.alternatives type]

/-- The key under which the value of a field is written. -/
def FieldOptions.key (options : FieldOptions) (field : NamedField) : String :=
  options.name.getD (plainIdent field.ident)

/-- The messages of a field are of the type of one value. -/
theorem element_of_elementKind {kind : Option KindOption} {element own : TypeExpr}
    (chosen : elementKind kind element = .ok (.message own)) : own = element := by
  unfold elementKind at chosen
  split at chosen
  · cases chosen
    rfl
  · cases chosen
  · cases chosen
  · cases chosen
  · split at chosen
    · cases chosen
    · cases chosen
      rfl

/-- What the call is that describes a field with its options. -/
inductive Describes (field : NamedField) (options : FieldOptions) : BuilderCall → Prop where
  /-- A field by itself. -/
  | field {kind : ElementKind} (single : options.kind ≠ some .oneof)
      (chosen : elementKind options.kind field.type.shape.element = .ok kind) :
      Describes field options (.field
        { name := options.key field, kind, cardinality := field.type.shape.cardinality
          secret := options.secret })
  /-- A group. -/
  | group (grouped : options.kind = some .oneof)
      (one : field.type.shape.cardinality = .singular) :
      Describes field options
        (.oneof (options.key field) field.type.shape.element options.secret)

/-- The call of a field has the key of the field. -/
theorem Describes.name_eq {field : NamedField} {options : FieldOptions} {call : BuilderCall}
    (describes : Describes field options call) : call.name = options.key field := by
  cases describes <;> rfl

variable {seen : List String} {fields : List NamedField} {calls : List BuilderCall}
  {registrations : List Registration}

/-- The first field is left out, or it has a call of its own with a key that has not been seen. -/
theorem describeFields_cons {field : NamedField} {rest : List NamedField}
    (described : describeFields seen (field :: rest) = .ok (calls, registrations)) :
    ∃ options, FieldOptions.ofAttributes field.attributes = .ok options ∧
      (options.skip = true ∧ describeFields seen rest = .ok (calls, registrations) ∨
        options.skip = false ∧ options.key field ∉ seen ∧
          ∃ call later others, Describes field options call ∧
            describeFields (options.key field :: seen) rest = .ok (later, others) ∧
            calls = call :: later ∧ registrations = call.registrations ++ others) := by
  rw [describeFields] at described
  obtain ⟨options, read, described⟩ := bind_eq_ok_iff.mp described
  refine ⟨options, read, ?_⟩
  cases skipped : options.skip with
  | true =>
    rw [skipped, if_pos rfl] at described
    exact .inl ⟨rfl, described⟩
  | false =>
    rw [skipped, if_neg Bool.false_ne_true] at described
    dsimp only at described
    split at described
    · cases described
    · next fresh =>
      rw [List.contains_iff_mem] at fresh
      refine .inr ⟨rfl, fresh, ?_⟩
      split at described
      · next grouped =>
        obtain ⟨⟨call, registration⟩, own, described⟩ := bind_eq_ok_iff.mp described
        obtain ⟨_, same, described⟩ := bind_eq_ok_iff.mp described
        obtain rfl := Except.ok.inj same
        obtain ⟨⟨later, others⟩, remaining, done⟩ := bind_eq_ok_iff.mp described
        obtain ⟨rfl, rfl⟩ := Prod.mk.inj (Except.ok.inj done)
        rw [describeOneof] at own
        split at own
        · next one =>
          obtain ⟨rfl, rfl⟩ := Prod.mk.inj (Except.ok.inj own)
          exact ⟨_, later, others, .group grouped one, remaining, rfl, rfl⟩
        all_goals cases own
      · next single =>
        obtain ⟨call, own, described⟩ := bind_eq_ok_iff.mp described
        obtain ⟨_, same, described⟩ := bind_eq_ok_iff.mp described
        obtain rfl := Except.ok.inj same
        obtain ⟨⟨later, others⟩, remaining, done⟩ := bind_eq_ok_iff.mp described
        obtain ⟨rfl, rfl⟩ := Prod.mk.inj (Except.ok.inj done)
        obtain ⟨kind, chosen, described⟩ := bind_eq_ok_iff.mp own
        obtain rfl := Except.ok.inj described
        exact ⟨_, later, others, .field single chosen, remaining, rfl, rfl⟩

/-- Whether a field is part of the description. -/
def NamedField.isIncluded (field : NamedField) : Bool :=
  match FieldOptions.ofAttributes field.attributes with
  | .ok options => !options.skip
  | .error _ => false

/-- A field that is not left out is part of the description. -/
theorem NamedField.isIncluded_iff {field : NamedField} {options : FieldOptions}
    (read : FieldOptions.ofAttributes field.attributes = .ok options) :
    field.isIncluded = true ↔ options.skip = false := by
  simp only [NamedField.isIncluded, read, Bool.not_eq_true']

/-- Whether a call describes a field with the options that the field has. -/
def NamedField.DescribedBy (field : NamedField) (call : BuilderCall) : Prop :=
  ∃ options, FieldOptions.ofAttributes field.attributes = .ok options ∧
    Describes field options call

/-- The calls and registrations of the fields of a struct: each field that is not left out has a
call, in the order of the fields, the keys of the calls are distinct and have not been seen, and the
registrations are those of the calls. -/
theorem describeFields_spec (described : describeFields seen fields = .ok (calls, registrations)) :
    registrations = calls.flatMap BuilderCall.registrations ∧
      (calls.map BuilderCall.name).Nodup ∧ (∀ call ∈ calls, call.name ∉ seen) ∧
      List.Forall₂ NamedField.DescribedBy (fields.filter NamedField.isIncluded) calls := by
  induction fields generalizing seen calls registrations with
  | nil =>
    obtain ⟨rfl, rfl⟩ := Prod.mk.inj (Except.ok.inj described)
    exact ⟨rfl, List.nodup_nil, List.forall_mem_nil _, .nil⟩
  | cons field rest ih =>
    obtain ⟨options, read, ⟨skipped, remaining⟩ |
      ⟨included, fresh, call, later, others, describes, remaining, rfl, rfl⟩⟩ :=
      describeFields_cons described
    · obtain ⟨registered, distinct, unseen, each⟩ := ih remaining
      have leftOut : ¬ field.isIncluded = true := by
        rw [NamedField.isIncluded_iff read, skipped]
        exact nofun
      rw [List.filter_cons_of_neg leftOut]
      exact ⟨registered, distinct, unseen, each⟩
    · obtain ⟨registered, distinct, unseen, each⟩ := ih remaining
      rw [List.filter_cons_of_pos ((NamedField.isIncluded_iff read).mpr included)]
      refine ⟨?_, ?_, ?_, .cons ⟨options, read, describes⟩ each⟩
      · rw [registered, List.flatMap_cons]
      · refine List.nodup_cons.mpr ⟨fun again => ?_, distinct⟩
        obtain ⟨other, present, same⟩ := List.mem_map.mp again
        refine unseen other present ?_
        rw [same, describes.name_eq]
        exact List.mem_cons_self
      · refine List.forall_mem_cons.mpr ⟨describes.name_eq ▸ fresh, fun other present again => ?_⟩
        exact unseen other present (List.mem_cons_of_mem _ again)

/-- A message type is derived from a struct with named fields, by describing these. -/
theorem deriveMessage_eq_ok {item : Item} {impl : MessageImpl}
    (accepted : deriveMessage item = .ok impl) :
    ∃ options fields, ContainerOptions.ofAttributes item.attributes = .ok options ∧
      item.body = .struct (.named fields) ∧
      describeFields [] fields = .ok (impl.calls, impl.registrations) ∧
      impl.ident = item.ident ∧ impl.typeName = options.typeName item.ident ∧
      impl.path = item.path := by
  rw [deriveMessage] at accepted
  obtain ⟨_, _, accepted⟩ := bind_eq_ok_iff.mp accepted
  obtain ⟨options, read, accepted⟩ := bind_eq_ok_iff.mp accepted
  cases body : item.body with
  | struct fields =>
    rw [body] at accepted
    cases fields with
    | named fields =>
      obtain ⟨⟨calls, registrations⟩, described, done⟩ := bind_eq_ok_iff.mp accepted
      obtain rfl := Except.ok.inj done
      exact ⟨options, fields, read, rfl, described, rfl, rfl, rfl⟩
    | tuple | unit => cases accepted
  | enum | union =>
    rw [body] at accepted
    cases accepted

/-- A derived message type has the path of its declaration. -/
theorem path_of_deriveMessage {item : Item} {impl : MessageImpl}
    (accepted : deriveMessage item = .ok impl) : impl.path = item.path := by
  obtain ⟨_, _, _, _, _, _, _, path⟩ := deriveMessage_eq_ok accepted
  exact path

/-- The key under which an alternative is written. -/
def FieldOptions.alternativeKey (options : FieldOptions) (variant : Variant) : String :=
  options.name.getD (snakeCase (plainIdent variant.ident))

/-- What the call is that describes a variant. -/
inductive Variant.Describes (variant : Variant) : FieldCall → Prop where
  /-- An alternative with one value. -/
  | alternative {type : TypeExpr} {options : FieldOptions} {kind : ElementKind}
      (wraps : newtypeOf variant.fields = .ok type)
      (read : FieldOptions.ofAttributes variant.attributes = .ok options)
      (included : options.skip = false) (single : options.kind ≠ some .oneof)
      (chosen : elementKind options.kind type.shape.element = .ok kind)
      (one : type.shape.cardinality = .singular) :
      Describes variant
        { name := options.alternativeKey variant, kind, cardinality := type.shape.cardinality
          secret := options.secret }

/-- The first variant has a call of its own with a name that has not been seen. -/
theorem describeVariants_cons {variant : Variant} {rest : List Variant}
    {alternatives : List FieldCall} {types : List TypeExpr}
    (described : describeVariants seen (variant :: rest) = .ok (alternatives, types)) :
    ∃ call later others, variant.Describes call ∧ call.name ∉ seen ∧
      describeVariants (call.name :: seen) rest = .ok (later, others) ∧
      alternatives = call :: later ∧ types = call.messageType?.toList ++ others := by
  rw [describeVariants] at described
  obtain ⟨type, wraps, described⟩ := bind_eq_ok_iff.mp described
  obtain ⟨options, read, described⟩ := bind_eq_ok_iff.mp described
  -- of the four tests only the branch that goes on has a result
  split at described
  · cases described
  next included =>
  split at described
  · cases described
  next single =>
  dsimp only at described
  split at described
  · cases described
  next fresh =>
  obtain ⟨call, own, described⟩ := bind_eq_ok_iff.mp described
  split at described
  · cases described
  next one =>
  obtain ⟨⟨later, others⟩, remaining, done⟩ := bind_eq_ok_iff.mp described
  obtain ⟨rfl, rfl⟩ := Prod.mk.inj (Except.ok.inj done)
  obtain ⟨kind, chosen, own⟩ := bind_eq_ok_iff.mp own
  obtain rfl := Except.ok.inj own
  rw [List.contains_iff_mem] at fresh
  exact ⟨_, later, others,
    .alternative wraps read (Bool.eq_false_iff.mpr included) single chosen (not_not.mp one), fresh,
    remaining, rfl, rfl⟩

/-- The alternatives of the variants of an enumeration: one for each variant in their order, with
distinct names that have not been seen. The message types are those of the alternatives. -/
theorem describeVariants_spec {variants : List Variant} {alternatives : List FieldCall}
    {types : List TypeExpr}
    (described : describeVariants seen variants = .ok (alternatives, types)) :
    types = alternatives.flatMap (fun call => call.messageType?.toList) ∧
      (alternatives.map FieldCall.name).Nodup ∧ (∀ call ∈ alternatives, call.name ∉ seen) ∧
      List.Forall₂ Variant.Describes variants alternatives := by
  induction variants generalizing seen alternatives types with
  | nil =>
    obtain ⟨rfl, rfl⟩ := Prod.mk.inj (Except.ok.inj described)
    exact ⟨rfl, List.nodup_nil, List.forall_mem_nil _, .nil⟩
  | cons variant rest ih =>
    obtain ⟨call, later, others, describes, fresh, remaining, rfl, rfl⟩ :=
      describeVariants_cons described
    obtain ⟨registered, distinct, unseen, each⟩ := ih remaining
    refine ⟨by rw [registered, List.flatMap_cons], ?_, ?_, .cons describes each⟩
    · refine List.nodup_cons.mpr ⟨fun again => ?_, distinct⟩
      obtain ⟨other, present, same⟩ := List.mem_map.mp again
      exact unseen other present (same ▸ List.mem_cons_self)
    · refine List.forall_mem_cons.mpr ⟨fresh, fun other present again => ?_⟩
      exact unseen other present (List.mem_cons_of_mem _ again)

/-- A group is derived from an enumeration, by describing its variants. -/
theorem deriveOneof_eq_ok {item : Item} {impl : OneofImpl}
    (accepted : deriveOneof item = .ok impl) :
    ∃ variants, item.body = .enum variants ∧
      describeVariants [] variants = .ok (impl.alternatives, impl.registrations) ∧
      impl.ident = item.ident ∧ impl.path = item.path := by
  rw [deriveOneof] at accepted
  obtain ⟨_, _, accepted⟩ := bind_eq_ok_iff.mp accepted
  obtain ⟨options, _, accepted⟩ := bind_eq_ok_iff.mp accepted
  split at accepted
  · cases accepted
  · split at accepted
    · next variants body =>
      obtain ⟨⟨alternatives, types⟩, described, done⟩ := bind_eq_ok_iff.mp accepted
      obtain rfl := Except.ok.inj done
      exact ⟨variants, body, described, rfl, rfl⟩
    all_goals cases accepted

/-- A derived group has the path of its declaration. -/
theorem path_of_deriveOneof {item : Item} {impl : OneofImpl}
    (accepted : deriveOneof item = .ok impl) : impl.path = item.path := by
  obtain ⟨_, _, _, _, path⟩ := deriveOneof_eq_ok accepted
  exact path

/-- The message types that a derived group registers are those of its alternatives. -/
theorem registrations_of_deriveOneof {item : Item} {impl : OneofImpl}
    (accepted : deriveOneof item = .ok impl) :
    impl.registrations = impl.alternatives.flatMap fun call => call.messageType?.toList := by
  obtain ⟨_, _, described, _⟩ := deriveOneof_eq_ok accepted
  exact (describeVariants_spec described).1

section Names

/-- A text without the dots at its beginning keeps no dot there. -/
theorem not_dotted_withoutDots (text : String) : ¬ Dotted (withoutDots text) := by
  intro dotted
  rw [Dotted, withoutDots, String.toList_ofList] at dotted
  have first := List.head?_dropWhile_not (fun c => c == '.') text.toList
  rw [dotted] at first
  simp at first

/-- A text in front of another one decides whether the whole starts with a dot unless it is
empty. -/
theorem not_dotted_append {first : String} (plain : ¬ Dotted first) (solid : first ≠ "")
    (second : String) : ¬ Dotted (first ++ second) := by
  rw [Dotted, String.toList_append, List.head?_append]
  cases start : first.toList with
  | nil => exact absurd (String.toList_eq_nil_iff.mp start) solid
  | cons c rest =>
    rw [Dotted, start] at plain
    simpa using plain

/-- A name without dots is a name without dots also without its mark. -/
theorem not_dotted_plainIdent {ident : String} (word : '.' ∉ ident.toList) :
    ¬ Dotted (plainIdent ident) := by
  intro dotted
  have inside : '.' ∈ (plainIdent ident).toList := List.mem_of_mem_head? dotted
  unfold plainIdent at inside
  split at inside
  · next rest start =>
    rw [String.toList_ofList] at inside
    exact word (start ▸ List.mem_cons_of_mem _ (List.mem_cons_of_mem _ inside))
  · exact word inside

namespace ContainerOptions

/-- Options that are more than dots. -/
structure Sound (options : ContainerOptions) : Prop where
  /-- The full name is, if it is given. -/
  name : ∀ name ∈ options.name, withoutDots name ≠ ""
  /-- The package is, if it is given. -/
  package : ∀ package ∈ options.package, withoutDots package ≠ ""

/-- The options that the attributes of a type give are sound. -/
theorem sound_of_ofAttributes {attributes : List Attribute} {options : ContainerOptions}
    (read : ofAttributes attributes = .ok options) : options.Sound := by
  obtain ⟨words, _, fits, rfl⟩ := readsSet_ofAttributes.accepts.mp read
  exact ⟨fun name given => fits.solid (.name name) (mem_of_name_ofWords given),
    fun package given => fits.solid (.package package) (mem_of_package_ofWords given)⟩

/-- The name of a type keeps no dot at its beginning. -/
theorem not_dotted_typeName {options : ContainerOptions} (sound : options.Sound) {ident : String}
    (word : '.' ∉ ident.toList) : ¬ Dotted (options.typeName ident) := by
  unfold typeName
  split
  · exact not_dotted_withoutDots _
  · next package _ given =>
    rw [String.append_assoc]
    exact not_dotted_append (not_dotted_withoutDots package) (sound.package package given) _
  · exact not_dotted_plainIdent word

/-- The name of a type is not empty. -/
theorem typeName_ne {options : ContainerOptions} (sound : options.Sound) {ident : String}
    (solid : plainIdent ident ≠ "") : options.typeName ident ≠ "" := by
  unfold typeName
  split
  · next _ name given => exact sound.name name given
  · next package _ given =>
    intro none
    have parts := (String.append_eq_empty_iff.mp none).2
    exact solid parts
  · exact solid

end ContainerOptions

/-- The name of a derived message type keeps no dot at its beginning. -/
theorem not_dotted_of_deriveMessage {item : Item} {impl : MessageImpl}
    (accepted : deriveMessage item = .ok impl) (word : '.' ∉ item.ident.toList) :
    ¬ Dotted impl.typeName := by
  obtain ⟨options, _, read, _, _, _, named, _⟩ := deriveMessage_eq_ok accepted
  rw [named]
  exact ContainerOptions.not_dotted_typeName (ContainerOptions.sound_of_ofAttributes read) word

end Names

end Redaction.Derivation

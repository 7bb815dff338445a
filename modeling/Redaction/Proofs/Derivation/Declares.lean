import Redaction.Proofs.Derivation.Described
import Redaction.Proofs.Schema.Reordered
import Redaction.Proofs.Walk.Claimants

/-!
# What the calls of an implementation declare

The calls of a derived implementation mention types as they are written in the program. Whatever
these types mean, each call declares a field or a group of the same name; all alternatives of a
secret group are secret. As the names are distinct, a group is the only claimant of its key and has
the alternatives of its own call.
-/

namespace Redaction.Derivation

open Schema (Declaration Field Kind Message)

/-- What the kind of a field is when the types are known. -/
inductive ElementKind.Denotes : ElementKind → Kind → Prop where
  /-- A single value. -/
  | scalar : Denotes .scalar .scalar
  /-- One of a list of names. -/
  | enumeration : Denotes .enumeration .enumeration
  /-- A message of the type of some name. -/
  | message (type : TypeExpr) (typeName : String) : Denotes (.message type) (.message typeName)

/-- What a call declares when the types are known. -/
inductive BuilderCall.Declares : BuilderCall → Declaration → Prop where
  /-- A field. -/
  | field {call : FieldCall} {kind : Kind} (denotes : call.kind.Denotes kind) :
      Declares (.field call) (.field
        { name := call.name, kind, cardinality := call.cardinality, sensitive := call.secret })
  /-- A group, where the type has some alternatives. -/
  | oneof (group : String) (type : TypeExpr) (secret : Bool) (alternatives : List Field) :
      Declares (.oneof group type secret) (.oneof group
        (if secret then alternatives.map Field.secret else alternatives))

section Counterparts

variable {α β : Type} {related : α → β → Prop} {list : List α} {counterparts : List β}

/-- Where items correspond one by one, each of the first list has a counterpart. -/
theorem exists_counterpart (all : List.Forall₂ related list counterparts) {item : α}
    (member : item ∈ list) : ∃ twin ∈ counterparts, related item twin := by
  induction all with
  | nil => cases member
  | cons here _ ih =>
    rcases List.mem_cons.mp member with rfl | later
    · exact ⟨_, List.mem_cons_self, here⟩
    · obtain ⟨twin, present, holds⟩ := ih later
      exact ⟨twin, List.mem_cons_of_mem _ present, holds⟩

/-- Where items correspond one by one, each of the second list has a counterpart. -/
theorem exists_counterpart_left (all : List.Forall₂ related list counterparts) {twin : β}
    (member : twin ∈ counterparts) : ∃ item ∈ list, related item twin :=
  exists_counterpart all.flip member

/-- What is computed one by one corresponds one by one. -/
theorem forall₂_of_mapM {f : α → Option β} (done : list.mapM f = some counterparts)
    (each : ∀ item twin, f item = some twin → related item twin) :
    List.Forall₂ related list counterparts := by
  induction list generalizing counterparts with
  | nil =>
    obtain rfl := Option.some.inj done
    exact .nil
  | cons item rest ih =>
    rw [List.mapM_cons] at done
    obtain ⟨twin, here, done⟩ := Option.bind_eq_some_iff.mp done
    obtain ⟨later, remaining, done⟩ := Option.bind_eq_some_iff.mp done
    obtain rfl := Option.some.inj done
    exact .cons (each item twin here) (ih remaining)

/-- What is computed one by one, without a complaint, corresponds one by one. -/
theorem forall₂_of_mapM_ok {ε : Type} {f : α → Except ε β} (done : list.mapM f = .ok counterparts) :
    List.Forall₂ (fun item result => f item = .ok result) list counterparts := by
  induction list generalizing counterparts with
  | nil =>
    obtain rfl := Except.ok.inj done
    exact .nil
  | cons item rest ih =>
    rw [List.mapM_cons] at done
    obtain ⟨first, here, done⟩ := bind_eq_ok_iff.mp done
    obtain ⟨later, remaining, done⟩ := bind_eq_ok_iff.mp done
    obtain rfl := Except.ok.inj done
    exact .cons here (ih remaining)

/-- What is computed one by one, without a complaint, is computed from one of the items. -/
theorem exists_of_mem_mapM {ε : Type} {f : α → Except ε β} (done : list.mapM f = .ok counterparts)
    {result : β} (member : result ∈ counterparts) : ∃ item ∈ list, f item = .ok result :=
  exists_counterpart_left (forall₂_of_mapM_ok done) member

/-- Where items correspond one by one and have the same names, the lists of names are the same. -/
theorem map_eq_map_of_forall₂ {γ : Type} {name : α → γ} {other : β → γ}
    (all : List.Forall₂ related list counterparts)
    (same : ∀ item twin, related item twin → name item = other twin) :
    list.map name = counterparts.map other := by
  induction all with
  | nil => rfl
  | cons here _ ih => rw [List.map_cons, List.map_cons, same _ _ here, ih]

end Counterparts

/-- Among calls that describe the fields of a struct, each field that is not left out has one, which
describes it with the options that it has. -/
theorem exists_describes {fields : List NamedField} {calls : List BuilderCall}
    (each : List.Forall₂ NamedField.DescribedBy (fields.filter NamedField.isIncluded) calls)
    {field : NamedField} (member : field ∈ fields) {options : FieldOptions}
    (read : FieldOptions.ofAttributes field.attributes = .ok options)
    (included : options.skip = false) : ∃ call ∈ calls, Describes field options call := by
  have present : field ∈ fields.filter NamedField.isIncluded :=
    List.mem_filter.mpr ⟨member, (NamedField.isIncluded_iff read).mpr included⟩
  obtain ⟨call, found, others, again, describes⟩ := exists_counterpart each present
  obtain rfl := Except.ok.inj (read.symm.trans again)
  exact ⟨call, found, describes⟩

/-- In a family, a call stands for what it declares. -/
theorem Family.declares_of_declaration? {family : Family} {site : String} {call : BuilderCall}
    {declaration : Declaration} (stands : family.declaration? site call = some declaration) :
    call.Declares declaration := by
  cases call with
  | field call =>
    obtain ⟨field, described, rfl⟩ := Option.map_eq_some_iff.mp stands
    obtain ⟨kind, resolved, done⟩ := Option.bind_eq_some_iff.mp described
    obtain rfl := Option.some.inj done
    refine .field ?_
    cases h : call.kind with
    | scalar =>
      rw [h] at resolved
      exact Option.some.inj resolved ▸ .scalar
    | enumeration =>
      rw [h] at resolved
      exact Option.some.inj resolved ▸ .enumeration
    | message type =>
      rw [h] at resolved
      obtain ⟨impl, _, rfl⟩ := Option.map_eq_some_iff.mp resolved
      exact .message type impl.typeName
  | oneof group type secret =>
    obtain ⟨impl, _, stands⟩ := Option.bind_eq_some_iff.mp stands
    obtain ⟨alternatives, _, done⟩ := Option.bind_eq_some_iff.mp stands
    obtain rfl := Option.some.inj done
    exact .oneof group type secret alternatives

/-- In a family, the description of a type consists of what its calls declare. -/
theorem Family.exists_declarations {family : Family} {impl : MessageImpl} {message : Message}
    (described : family.description? impl = some message) :
    ∃ declarations, List.Forall₂ BuilderCall.Declares impl.calls declarations ∧
      message = .ofDeclarations impl.typeName declarations := by
  obtain ⟨declarations, stand, done⟩ := Option.bind_eq_some_iff.mp described
  exact ⟨declarations, forall₂_of_mapM stand fun _ _ => declares_of_declaration?,
    (Option.some.inj done).symm⟩

section Declared

variable {calls : List BuilderCall} {declarations : List Declaration} (typeName : String)
  (declares : List.Forall₂ BuilderCall.Declares calls declarations)

include declares

/-- Each field call declares a plain field of its name, with its mark. -/
theorem exists_plainField_of_mem {call : FieldCall} (member : .field call ∈ calls) :
    ∃ field ∈ (Message.ofDeclarations typeName declarations).plainFields,
      field.name = call.name ∧ field.sensitive = call.secret := by
  obtain ⟨declaration, present, holds⟩ := exists_counterpart declares member
  cases holds with
  | @field _ kind denotes =>
    let field : Field :=
      { name := call.name, kind, cardinality := call.cardinality, sensitive := call.secret }
    have declared : field ∈ (Message.ofDeclarations typeName declarations).fields := by
      rw [(Message.ofDeclarations_spec typeName declarations).2.1]
      exact List.mem_flatMap.mpr ⟨_, present, List.mem_singleton.mpr rfl⟩
    exact ⟨field, List.mem_filter.mpr ⟨declared, rfl⟩, rfl, rfl⟩

/-- Each group call lists its group. -/
theorem mem_groups_of_mem {group : String} {type : TypeExpr} {secret : Bool}
    (member : .oneof group type secret ∈ calls) :
    group ∈ (Message.ofDeclarations typeName declarations).groups := by
  obtain ⟨declaration, present, holds⟩ := exists_counterpart declares member
  cases holds with
  | oneof =>
    rw [(Message.ofDeclarations_spec typeName declarations).2.2]
    exact List.mem_flatMap.mpr ⟨_, present, List.mem_singleton.mpr rfl⟩

variable (distinct : (calls.map BuilderCall.name).Nodup)

include distinct

/-- No plain field has the name of a group. -/
theorem claimants_of_mem {group : String} {type : TypeExpr} {secret : Bool}
    (member : .oneof group type secret ∈ calls) :
    (Message.ofDeclarations typeName declarations).claimants group = [] := by
  refine List.filter_eq_nil_iff.mpr fun field plain same => ?_
  obtain ⟨declared, single⟩ := List.mem_filter.mp plain
  rw [(Message.ofDeclarations_spec typeName declarations).2.1] at declared
  obtain ⟨declaration, present, inside⟩ := List.mem_flatMap.mp declared
  obtain ⟨call, other, holds⟩ := exists_counterpart_left declares present
  cases holds with
  | field denotes =>
    obtain rfl := List.mem_singleton.mp inside
    have named : BuilderCall.name (.oneof group type secret) = BuilderCall.name (.field _) :=
      (beq_iff_eq.mp same).symm
    cases List.inj_on_of_nodup_map distinct member other named
  | oneof =>
    obtain ⟨alternative, _, rfl⟩ := List.mem_map.mp inside
    cases single

/-- All alternatives of a secret group are secret. -/
theorem sensitive_of_mem_alternatives {group : String} {type : TypeExpr}
    (member : .oneof group type true ∈ calls) {alternative : Field}
    (chosen : alternative ∈ (Message.ofDeclarations typeName declarations).alternatives group) :
    alternative.sensitive = true := by
  obtain ⟨declared, belongs⟩ := List.mem_filter.mp chosen
  rw [(Message.ofDeclarations_spec typeName declarations).2.1] at declared
  obtain ⟨declaration, present, inside⟩ := List.mem_flatMap.mp declared
  obtain ⟨call, other, holds⟩ := exists_counterpart_left declares present
  cases holds with
  | field denotes =>
    obtain rfl := List.mem_singleton.mp inside
    cases belongs
  | oneof first owner secret given =>
    obtain ⟨before, listed, rfl⟩ := List.mem_map.mp inside
    have same : first = group := Option.some.inj (beq_iff_eq.mp belongs)
    have named : BuilderCall.name (.oneof first owner secret) =
      BuilderCall.name (.oneof group type true) := same
    cases List.inj_on_of_nodup_map distinct other member named
    rw [if_pos rfl] at listed
    obtain ⟨_, _, rfl⟩ := List.mem_map.mp listed
    rfl

end Declared

end Redaction.Derivation

import Mathlib.Data.List.Induction
import Redaction.Proofs.Schema.Reordered
import Redaction.Proofs.Walk.Fate

/-!
# The parts of a type

The fields of a type are asked for part by part: first the plain fields, then the alternatives of
one group after the other. However a type has been declared, nothing gets lost between the parts and
nothing is met twice. The groups are those that the declarations mention, in the order in which they
are mentioned first, and the parts deal out the declared fields.
-/

namespace Redaction.Schema

section Dealing

variable {α κ : Type}

/-- A list is dealt out to parts: each item goes to one of the parts, and every part keeps the order
in which its items came. -/
inductive Dealt : List α → List (List α) → Prop where
  /-- Nothing is left. -/
  | nil {parts : List (List α)} (empty : ∀ part ∈ parts, part = []) : Dealt [] parts
  /-- The first item goes to one of the parts, the others are dealt out later. -/
  | cons {item : α} {rest part : List α} {before after : List (List α)}
      (later : Dealt rest (before ++ part :: after)) :
      Dealt (item :: rest) (before ++ (item :: part) :: after)

/-- The parts together hold each item as often as the list. -/
theorem Dealt.perm {items : List α} {parts : List (List α)} (dealt : Dealt items parts) :
    parts.flatten.Perm items := by
  induction dealt with
  | nil empty => rw [List.flatten_eq_nil_iff.mpr empty]
  | @cons item rest part before after _ ih =>
    rw [List.flatten_append, List.flatten_cons] at ih ⊢
    exact List.perm_middle.trans (ih.cons item)

/-- A list is dealt out by a key that each of its items has: one part for each key. -/
theorem dealt_filter [DecidableEq κ] {key : α → κ} {keys : List κ} (distinct : keys.Nodup)
    {items : List α} (covered : ∀ item ∈ items, key item ∈ keys) :
    Dealt items (keys.map fun own => items.filter fun item => key item = own) := by
  induction items with
  | nil => exact .nil (by simp)
  | cons item rest ih =>
    obtain ⟨own, others⟩ := List.forall_mem_cons.mp covered
    obtain ⟨before, after, rfl⟩ := List.append_of_mem own
    obtain ⟨_, apart, notBefore⟩ := List.nodup_append.mp distinct
    have notAfter := (List.nodup_cons.mp apart).1
    -- The item joins the part of its own key and leaves the parts of all other keys alone.
    have elsewhere : ∀ keys : List κ, key item ∉ keys →
        (keys.map fun own => (item :: rest).filter fun item => key item = own) =
          keys.map fun own => rest.filter fun item => key item = own := by
      intro keys absent
      refine List.map_congr_left fun other present => ?_
      have different : key item ≠ other := fun same => absent (same ▸ present)
      simp only [List.filter_cons, different, decide_false, Bool.false_eq_true, if_false]
    have dealt := ih others
    rw [List.map_append, List.map_cons] at dealt ⊢
    rw [elsewhere before fun present => notBefore _ present _ List.mem_cons_self rfl,
      elsewhere after notAfter, List.filter_cons, if_pos (decide_eq_true rfl)]
    exact .cons dealt

end Dealing

namespace Message

/-- Listing groups one after the other lists each of them once, in the order of first mention. -/
theorem foldl_enlist_spec (mentioned : List String) :
    (∀ group, group ∈ mentioned.foldl enlist [] ↔ group ∈ mentioned) ∧
      (mentioned.foldl enlist []).Pairwise fun first second =>
        mentioned.idxOf first < mentioned.idxOf second := by
  induction mentioned using List.reverseRecOn with
  | nil => simp
  | append_singleton earlier group ih =>
    obtain ⟨listed, ordered⟩ := ih
    have kept : (earlier.foldl enlist []).Pairwise fun first second =>
        (earlier ++ [group]).idxOf first < (earlier ++ [group]).idxOf second := by
      refine ordered.imp_of_mem fun {first second} one two before => ?_
      rwa [List.idxOf_append_of_mem ((listed first).mp one),
        List.idxOf_append_of_mem ((listed second).mp two)]
    rw [List.foldl_append, List.foldl_cons, List.foldl_nil, enlist]
    split
    · next present =>
      refine ⟨fun other => ?_, kept⟩
      rw [listed, List.mem_append, List.mem_singleton, or_iff_left_of_imp]
      rintro rfl
      exact (listed other).mp present
    · next absent =>
      refine ⟨fun other => by rw [List.mem_append, listed, List.mem_append],
        List.pairwise_append.mpr
          ⟨kept, List.pairwise_singleton _ _, fun first one second two => ?_⟩⟩
      obtain rfl := List.mem_singleton.mp two
      have new : second ∉ earlier := fun present => absent ((listed second).mpr present)
      rw [List.idxOf_append_of_mem ((listed first).mp one), List.idxOf_append_of_notMem new]
      exact Nat.lt_add_right _ (List.idxOf_lt_length_iff.mpr ((listed first).mp one))

/-- The groups of a declared type are listed as the declarations mention them. -/
theorem groups_ofDeclarations (name : String) (declarations : List Declaration) :
    (ofDeclarations name declarations).groups =
      (declarations.flatMap Declaration.groups).foldl enlist [] := by
  have start : ∀ message : Message, (declarations.foldl declare message).groups =
      (declarations.flatMap Declaration.groups).foldl enlist message.groups := by
    induction declarations with
    | nil => exact fun _ => rfl
    | cons declaration rest ih =>
      intro message
      rw [List.foldl_cons, ih, groups_declare, List.flatMap_cons, List.foldl_append]
  exact start (empty name)

variable (message : Message)

/-- What fields can belong to: no group, or one of those listed. -/
def owners : List (Option String) := none :: message.groups.map some

/-- The fields that belong to no group, or to the group given. -/
def fieldsOf : Option String → List Field
  | none => message.plainFields
  | some group => message.alternatives group

/-- The fields of a part are the fields with this owner, in the order of their declaration. -/
theorem fieldsOf_eq_filter (owner : Option String) :
    message.fieldsOf owner = message.fields.filter fun field => field.group = owner := by
  cases owner with
  | none => exact List.filter_congr fun field _ => by cases field.group <;> rfl
  | some group => exact List.filter_congr fun field _ => beq_eq_decide _ _

/-- No owner is listed twice. -/
theorem nodup_owners : message.owners.Nodup :=
  List.nodup_cons.mpr ⟨by simp, message.groups_nodup.map fun _ _ => Option.some.inj⟩

variable {message}

/-- The owner of a field is listed. -/
theorem group_mem_owners {field : Field} (declared : field ∈ message.fields) :
    field.group ∈ message.owners := by
  cases belongs : field.group with
  | none => exact List.mem_cons_self
  | some group =>
    exact List.mem_cons_of_mem _
      (List.mem_map_of_mem (message.group_listed field declared group belongs))

/-- The parts deal out the fields. -/
theorem dealt_fields : Dealt message.fields (message.owners.map message.fieldsOf) := by
  rw [funext message.fieldsOf_eq_filter]
  exact dealt_filter message.nodup_owners fun _ declared => group_mem_owners declared

/-- A field stands in one part only, which is that of its owner. -/
theorem existsUnique_owner {field : Field} (declared : field ∈ message.fields) :
    ∃! owner, owner ∈ message.owners ∧ field ∈ message.fieldsOf owner := by
  refine ⟨field.group, ⟨group_mem_owners declared, ?_⟩, fun owner ⟨_, stands⟩ => ?_⟩
  · rw [fieldsOf_eq_filter]
    exact List.mem_filter.mpr ⟨declared, decide_eq_true rfl⟩
  · rw [fieldsOf_eq_filter] at stands
    exact (of_decide_eq_true (List.mem_filter.mp stands).2).symm

/-- The group of a declared field is found among those listed. -/
theorem groupOf?_of_mem {field : Field} (declared : field ∈ message.fields) :
    message.groupOf? field = field.group := by
  rw [groupOf?]
  cases belongs : field.group with
  | none => rfl
  | some group =>
    have listed := message.group_listed field declared group belongs
    cases found : message.groups.find? (· == group) with
    | none => exact absurd BEq.rfl (List.find?_eq_none.mp found group listed)
    | some other =>
      rw [Option.bind_some, found, eq_of_beq (List.find?_some (p := (· == group)) found)]

end Message

/-- The parts of a type that any declarations describe. Its groups are those that are mentioned,
each listed once and in the order of first mention. Its plain fields and the alternatives of its
groups deal out the declared fields: each occurrence stands in exactly one of these parts, and every
part keeps the order of declaration. A declared field belongs to the group that it names, and the
keys that mean something are the names of the plain fields and the groups. -/
theorem fields_partitioned (name : String) (declarations : List Declaration) :
    let message := Message.ofDeclarations name declarations
    let declared := declarations.flatMap Declaration.fields
    let mentioned := declarations.flatMap Declaration.groups
    (message.groups.Nodup ∧ (∀ group, group ∈ message.groups ↔ group ∈ mentioned) ∧
      message.groups.Pairwise fun first second =>
        mentioned.idxOf first < mentioned.idxOf second) ∧
    (message.fields = declared ∧
      Dealt declared (message.plainFields :: message.groups.map message.alternatives) ∧
      (message.plainFields ++ message.groups.flatMap message.alternatives).Perm declared ∧
      ∀ field ∈ declared,
        ∃! owner, owner ∈ none :: message.groups.map some ∧ field ∈ message.fieldsOf owner) ∧
    (∀ field ∈ declared, message.groupOf? field = field.group) ∧
    ∀ key, message.isKnownKey key = true ↔
      (∃ field ∈ message.plainFields, field.name = key) ∨ key ∈ message.groups := by
  intro message declared mentioned
  have listing : message.groups = mentioned.foldl Message.enlist [] :=
    Message.groups_ofDeclarations name declarations
  obtain ⟨listed, ordered⟩ := Message.foldl_enlist_spec mentioned
  have fields : message.fields = declared := (Message.ofDeclarations_spec name declarations).2.1
  have dealt : Dealt declared (message.plainFields :: message.groups.map message.alternatives) := by
    have parts := message.dealt_fields
    rwa [fields, Message.owners, List.map_cons, List.map_map] at parts
  refine ⟨⟨message.groups_nodup, ?_, ?_⟩, ⟨fields, dealt, ?_, ?_⟩, ?_, ?_⟩
  · rwa [listing]
  · rwa [listing]
  · rw [List.flatMap_def, ← List.flatten_cons]
    exact dealt.perm
  · rw [← fields]
    exact fun field present => Message.existsUnique_owner present
  · rw [← fields]
    exact fun field present => Message.groupOf?_of_mem present
  · exact fun key => Message.isKnownKey_iff

/-- A group that is mentioned by a field and extended later, with an alternative that belonged to
another group before, and a group without alternatives. -/
theorem source_partitioned :
    let volume : Field := (Field.scalar "volume").inGroup "type"
    let snapshot : Field := (Field.scalar "volume").inGroup "stale"
    let declarations : List Declaration :=
      [.field volume, .oneof "empty" [], .field (.scalar "name"), .oneof "type" [snapshot]]
    let message := Message.ofDeclarations "csi.v1.Source" declarations
    message.groups = ["type", "empty"] ∧ message.plainFields = [.scalar "name"] ∧
    message.alternatives "type" = [volume, volume] ∧ message.alternatives "empty" = [] ∧
    volume ∈ declarations.flatMap Declaration.fields ∧ message.groupOf? volume = some "type" :=
  ⟨by decide, by decide, by decide, by decide, by decide,
    (fields_partitioned "csi.v1.Source" _).2.2.1 _ (by decide)⟩

end Redaction.Schema

import Redaction.Proofs.Schema.Reachable
import Redaction.Proofs.Tree.Path

/-!
# Trees that are alike outside secrets

Two trees are alike if they differ in the values of secret fields only: those of plain fields, of
the single alternative in use of a group, and of the messages inside them, one, in lists or in maps.
Whatever a secret field holds may differ. In the tree of a document a member that is `null` counts
as absent, so a secret is there in both trees or in neither. In a type without secrets alike trees
are equal.
-/

namespace Redaction

open Schema Redaction.Tree

namespace Schema.Registry

mutual

/-- Two trees that are alike as messages of a type. -/
inductive AlikeMessages (registry : Registry) (policy : Policy) : Message → Tree → Tree → Prop where
  /-- The same tree twice. -/
  | same (message : Message) (tree : Tree) : AlikeMessages registry policy message tree tree
  /-- Two objects with the same keys, each with its two values, which are alike. -/
  | object {message : Message} (members : List (String × Tree × Tree))
      (each : ∀ member ∈ members,
        AlikeMembers registry policy message member.1 member.2.1 member.2.2) :
      AlikeMessages registry policy message
        (.object (members.map fun member => (member.1, member.2.1)))
        (.object (members.map fun member => (member.1, member.2.2)))

/-- Two trees that are alike as values of a key in messages of a type. -/
inductive AlikeMembers (registry : Registry) (policy : Policy) :
    Message → String → Tree → Tree → Prop where
  /-- The same tree twice. -/
  | same (message : Message) (key : String) (tree : Tree) :
      AlikeMembers registry policy message key tree tree
  /-- The values of a plain field. -/
  | plain {message : Message} {field : Field} {first second : Tree}
      (declared : field ∈ message.plainFields)
      (below : AlikeValues registry policy field first second) :
      AlikeMembers registry policy message field.name first second
  /-- The values of the same single alternative of a group. -/
  | alternative {message : Message} {group : String} {field : Field} {first second : Tree}
      (declared : field ∈ message.alternatives group)
      (below : AlikeValues registry policy field first second) :
      AlikeMembers registry policy message group (.object [(field.name, first)])
        (.object [(field.name, second)])

/-- Two trees that are alike as values of a field. -/
inductive AlikeValues (registry : Registry) (policy : Policy) : Field → Tree → Tree → Prop where
  /-- The same tree twice. -/
  | same (field : Field) (tree : Tree) : AlikeValues registry policy field tree tree
  /-- Any two values of a secret field. -/
  | secret {field : Field} (sensitive : policy.isSensitive field = true) (first second : Tree) :
      AlikeValues registry policy field first second
  /-- Two messages. -/
  | singular {field : Field} {nested : Message} {first second : Tree}
      (single : field.cardinality = .singular) (resolved : registry.nested? field = some nested)
      (below : AlikeMessages registry policy nested first second) :
      AlikeValues registry policy field first second
  /-- Two lists of the same length, item by item. -/
  | list {field : Field} {nested : Message} (repeated : field.cardinality = .repeated)
      (resolved : registry.nested? field = some nested) (items : List (Tree × Tree))
      (each : ∀ item ∈ items, AlikeMessages registry policy nested item.1 item.2) :
      AlikeValues registry policy field (.list (items.map Prod.fst)) (.list (items.map Prod.snd))
  /-- Two maps with the same keys, value by value. -/
  | map {field : Field} {nested : Message} (map : field.cardinality = .map)
      (resolved : registry.nested? field = some nested) (members : List (String × Tree × Tree))
      (each : ∀ member ∈ members,
        AlikeMessages registry policy nested member.2.1 member.2.2) :
      AlikeValues registry policy field
        (.object (members.map fun member => (member.1, member.2.1)))
        (.object (members.map fun member => (member.1, member.2.2)))

end

/-- Two trees that are alike as messages of the type referred to; the same tree if there is none. -/
def Alike (registry : Registry) (policy : Policy) (reference : String) (first second : Tree) :
    Prop :=
  first = second ∨ ∃ message, registry.get? reference = some message ∧
    registry.AlikeMessages policy message first second

variable {registry : Registry} {policy : Policy}

/-- Alike values of a field that is not secret are equal if alike messages in it are. -/
theorem AlikeValues.eq {field : Field} {first second : Tree} {bound : Nat}
    (alike : registry.AlikeValues policy field first second)
    (visible : policy.isSensitive field = false)
    (below : ∀ nested first second, registry.nested? field = some nested →
      registry.AlikeMessages policy nested first second → first.depth ≤ bound → first = second)
    (low : first.depth ≤ bound) : first = second := by
  cases alike with
  | same => rfl
  | secret sensitive =>
    rw [visible] at sensitive
    cases sensitive
  | singular _ resolved alike => exact below _ first second resolved alike low
  | list _ resolved items each =>
    simp only [depth] at low
    have shallow := itemsDepth_le_iff.mp (show itemsDepth (items.map Prod.fst) ≤ bound by omega)
    refine congrArg Tree.list (List.map_congr_left fun item member => ?_)
    exact below _ _ _ resolved (each item member) (shallow _ (List.mem_map_of_mem member))
  | map _ resolved members each =>
    simp only [depth] at low
    have shallow := membersDepth_le_iff.mp
      (show membersDepth (members.map fun member => (member.1, member.2.1)) ≤ bound by omega)
    refine congrArg Tree.object (List.map_congr_left fun member present => ?_)
    rw [below _ _ _ resolved (each member present) (shallow _ (List.mem_map_of_mem present))]

/-- Alike messages of a harmless type are equal. -/
theorem AlikeMessages.eq (undotted : registry.Undotted) {message : Message} {first second : Tree}
    (alike : registry.AlikeMessages policy message first second)
    (member : message ∈ registry.messages)
    (harmless : registry.Harmless policy message.name) : first = second := by
  obtain ⟨bound, low⟩ : ∃ bound, first.depth ≤ bound := ⟨_, Nat.le_refl _⟩
  induction bound generalizing message first second with
  | zero =>
    cases alike with
    | same => rfl
    | object members each =>
      simp only [depth] at low
      omega
  | succ bound ih =>
    cases alike with
    | same => rfl
    | object members each =>
      simp only [depth] at low
      have shallow := membersDepth_le_iff.mp
        (show membersDepth (members.map fun member => (member.1, member.2.1)) ≤ bound by omega)
      have values : ∀ field ∈ message.fields, ∀ first second,
          registry.AlikeValues policy field first second → first.depth ≤ bound →
            first = second := by
        intro field declared first second alike below
        refine alike.eq (harmless.visible member field declared)
          (fun nested _ _ resolved inner low => ?_) below
        obtain ⟨typeName, refers, _⟩ := Option.bind_eq_some_iff.mp resolved
        obtain ⟨other, found, safe⟩ := harmless.nested undotted member declared refers
        obtain rfl := Option.some.inj (resolved.symm.trans found)
        exact ih inner (mem_of_nested?_eq_some resolved) safe low
      refine congrArg Tree.object (List.map_congr_left fun entry present => ?_)
      have low := shallow _ (List.mem_map_of_mem present)
      obtain ⟨key, first, second⟩ := entry
      have inside := each _ present
      dsimp only at inside low ⊢
      cases inside with
      | same => rfl
      | plain declared below =>
        rw [values _ (List.mem_of_mem_filter declared) _ _ below low]
      | alternative declared below =>
        simp only [depth, membersDepth] at low
        rw [values _ (List.mem_of_mem_filter declared) _ _ below (by omega)]

end Schema.Registry

end Redaction

import Redaction.Proofs.Fallible
import Redaction.Proofs.Members
import Redaction.Proofs.Tree.Blotted
import Redaction.Serial.Document

/-!
# The order of keys in documents of data

Records and maps are put together key by key, so that the keys of their documents ascend whatever
the order of the fields and entries is. Only a document that the data holds as it is can bring keys
in another order.
-/

namespace Redaction

namespace Json

/-- The items of a canonical list are canonical. -/
theorem canonicalItems_iff {items : List Json} :
    CanonicalItems items ↔ ∀ item ∈ items, item.Canonical := by
  induction items with
  | nil => simp only [CanonicalItems, List.not_mem_nil, false_imp_iff, implies_true]
  | cons item rest ih => rw [CanonicalItems, ih, List.forall_mem_cons]

/-- The values of a canonical object are canonical. -/
theorem canonicalMembers_iff {members : List (String × Json)} :
    CanonicalMembers members ↔ ∀ member ∈ members, member.2.Canonical := by
  induction members with
  | nil => simp only [CanonicalMembers, List.not_mem_nil, false_imp_iff, implies_true]
  | cons member rest ih => rw [CanonicalMembers, ih, List.forall_mem_cons]

/-- An object put together from canonical values is canonical. -/
theorem canonical_ofMembers {members : List (String × Json)}
    (canonical : CanonicalMembers members) : (ofMembers members).Canonical :=
  ⟨Members.ordered_ofList members, canonicalMembers_iff.mpr fun member present =>
    canonicalMembers_iff.mp canonical member (Members.mem_of_mem_ofList present)⟩

end Json

namespace Serial.Data

mutual

/-- Whether the keys ascend in every document that the data holds as it is. -/
def Canonical : Data → Prop
  | .json value => value.Canonical
  | .present value | .wrapper value | .labelled _ value => value.Canonical
  | .sequence items | .labelledSequence _ items => CanonicalItems items
  | .map entries => CanonicalEntries entries
  | .record fields | .labelledRecord _ fields => CanonicalFields fields
  | _ => True

/-- Whether all items are canonical. -/
def CanonicalItems : List Data → Prop
  | [] => True
  | item :: rest => item.Canonical ∧ CanonicalItems rest

/-- Whether the values of all entries are canonical. -/
def CanonicalEntries : List (Data × Data) → Prop
  | [] => True
  | (_, value) :: rest => value.Canonical ∧ CanonicalEntries rest

/-- Whether the values of all fields are canonical. -/
def CanonicalFields : List (String × Data) → Prop
  | [] => True
  | (_, value) :: rest => value.Canonical ∧ CanonicalFields rest

end

/-- A float has no keys. -/
theorem canonical_ofDouble (value : Number.Extended Number.binary64) :
    (ofDouble value).Canonical := by
  cases value <;> exact True.intro

section Bytes

-- Unfolded, the comparison with the end of the words would be counted down one by one.
attribute [local irreducible] WordInteger.ofInt?

/-- The document of a byte is that of a whole number. -/
theorem ofByte_eq : ofByte = fun byte => match WordInteger.ofInt? byte.toNat with
    | some n => .number (.integer n)
    | none => .null := by
  delta ofByte
  exact Eq.refl _

/-- A byte has no keys. -/
theorem canonical_ofByte (byte : UInt8) : (ofByte byte).Canonical := by
  rw [ofByte_eq]
  dsimp only
  cases WordInteger.ofInt? byte.toNat <;> exact True.intro

/-- A byte string has no keys. -/
theorem canonicalItems_map_ofByte (value : List UInt8) :
    Json.CanonicalItems (value.map ofByte) := by
  induction value with
  | nil => exact True.intro
  | cons byte rest ih =>
    rw [List.map_cons, Json.CanonicalItems]
    exact ⟨canonical_ofByte byte, ih⟩

end Bytes

/-- A whole number has no keys. -/
theorem canonical_ofInteger {value : Int} {document : Json}
    (written : ofInteger value = .ok document) : document.Canonical := by
  rw [ofInteger] at written
  split at written
  · cases written; trivial
  · cases written

mutual

/-- The document of canonical data is canonical. -/
theorem canonical_toJson : (data : Data) → data.Canonical → (document : Json) →
    data.toJson = .ok document → document.Canonical
  | .json value, canonical, document, written => by
    cases written
    exact canonical
  | .integer value, _, document, written => canonical_ofInteger written
  | .single value, _, document, written => by
    cases written
    exact canonical_ofDouble _
  | .double value, _, document, written => by
    cases written
    exact canonical_ofDouble _
  | .character value, _, document, written => by
    cases written
    trivial
  | .bytes value, _, document, written => by
    cases written
    exact canonicalItems_map_ofByte value
  | .nothing, _, document, written => by
    cases written
    trivial
  | .present value, canonical, document, written =>
    canonical_toJson value canonical document written
  | .wrapper value, canonical, document, written =>
    canonical_toJson value canonical document written
  | .sequence items, canonical, document, written => by
    obtain ⟨list, each, done⟩ := bind_eq_ok_iff.mp written
    cases done
    exact canonical_itemsToJson items canonical list each
  | .map entries, canonical, document, written => by
    obtain ⟨members, each, done⟩ := bind_eq_ok_iff.mp written
    cases done
    exact Json.canonical_ofMembers (canonical_entriesToJson entries canonical members each)
  | .record fields, canonical, document, written => by
    obtain ⟨members, each, done⟩ := bind_eq_ok_iff.mp written
    cases done
    exact Json.canonical_ofMembers (canonical_fieldsToJson fields canonical members each)
  | .label name, _, document, written => by
    cases written
    trivial
  | .labelled name value, canonical, document, written => by
    obtain ⟨inner, own, done⟩ := bind_eq_ok_iff.mp written
    cases done
    exact ⟨List.pairwise_singleton _ _, canonical_toJson value canonical inner own, trivial⟩
  | .labelledSequence name items, canonical, document, written => by
    obtain ⟨list, each, done⟩ := bind_eq_ok_iff.mp written
    cases done
    exact ⟨List.pairwise_singleton _ _, canonical_itemsToJson items canonical list each, trivial⟩
  | .labelledRecord name fields, canonical, document, written => by
    obtain ⟨members, each, done⟩ := bind_eq_ok_iff.mp written
    cases done
    exact ⟨List.pairwise_singleton _ _,
      Json.canonical_ofMembers (canonical_fieldsToJson fields canonical members each), trivial⟩

/-- The documents of canonical items are canonical. -/
theorem canonical_itemsToJson : (items : List Data) → CanonicalItems items →
    (documents : List Json) → itemsToJson items = .ok documents → Json.CanonicalItems documents
  | [], _, documents, written => by
    cases written
    trivial
  | item :: rest, canonical, documents, written => by
    obtain ⟨first, own, written⟩ := bind_eq_ok_iff.mp written
    obtain ⟨later, each, done⟩ := bind_eq_ok_iff.mp written
    cases done
    exact ⟨canonical_toJson item canonical.1 first own,
      canonical_itemsToJson rest canonical.2 later each⟩

/-- The documents of canonical entries are canonical. -/
theorem canonical_entriesToJson : (entries : List (Data × Data)) → CanonicalEntries entries →
    (members : List (String × Json)) → entriesToJson entries = .ok members →
    Json.CanonicalMembers members
  | [], _, members, written => by
    cases written
    trivial
  | (key, value) :: rest, canonical, members, written => by
    obtain ⟨name, _, written⟩ := bind_eq_ok_iff.mp written
    obtain ⟨first, own, written⟩ := bind_eq_ok_iff.mp written
    obtain ⟨later, each, done⟩ := bind_eq_ok_iff.mp written
    cases done
    exact ⟨canonical_toJson value canonical.1 first own,
      canonical_entriesToJson rest canonical.2 later each⟩

/-- The documents of canonical fields are canonical. -/
theorem canonical_fieldsToJson : (fields : List (String × Data)) → CanonicalFields fields →
    (members : List (String × Json)) → fieldsToJson fields = .ok members →
    Json.CanonicalMembers members
  | [], _, members, written => by
    cases written
    trivial
  | (name, value) :: rest, canonical, members, written => by
    obtain ⟨first, own, written⟩ := bind_eq_ok_iff.mp written
    obtain ⟨later, each, done⟩ := bind_eq_ok_iff.mp written
    cases done
    exact ⟨canonical_toJson value canonical.1 first own,
      canonical_fieldsToJson rest canonical.2 later each⟩

end

/-- The tree of canonical data is canonical. -/
theorem canonical_toTree {data : Data} {tree : Tree} (canonical : data.Canonical)
    (written : data.toTree = .ok tree) : tree.Canonical := by
  obtain ⟨document, own, done⟩ := bind_eq_ok_iff.mp written
  cases done
  exact Tree.canonical_ofJson document (canonical_toJson data canonical document own)

end Serial.Data

end Redaction

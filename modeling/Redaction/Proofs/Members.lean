import Redaction.Members

/-!
# Putting an object together

Members may be added in any order: the keys of the result ascend, nothing is in it that was not
added, and members whose keys ascend already stay as they stand.
-/

namespace Redaction.Members

variable {α : Type} {key : String} {value : α} {members : List (String × α)}

/-- Adding a member adds nothing else. -/
theorem mem_of_mem_insert {member : String × α} (present : member ∈ insert key value members) :
    member = (key, value) ∨ member ∈ members := by
  induction members with
  | nil => exact .inl (List.mem_singleton.mp present)
  | cons first rest ih =>
    rw [insert] at present
    split at present
    · exact List.mem_cons.mp present
    split at present
    · exact (List.mem_cons.mp present).imp_right (List.mem_cons_of_mem _)
    · rcases List.mem_cons.mp present with rfl | later
      · exact .inr List.mem_cons_self
      · exact (ih later).imp_right (List.mem_cons_of_mem _)

/-- Adding a member keeps the keys in order. -/
theorem ordered_insert (ordered : Ordered members) : Ordered (insert key value members) := by
  induction members with
  | nil => exact List.pairwise_singleton _ _
  | cons first rest ih =>
    obtain ⟨above, tail⟩ := List.pairwise_cons.mp ordered
    rw [insert]
    split
    · next below =>
      refine List.pairwise_cons.mpr ⟨fun other present => ?_, ordered⟩
      rcases List.mem_cons.mp present with rfl | later
      · exact below
      · exact String.lt_trans below (above other later)
    · next notBelow =>
      split
      · next same =>
        subst same
        exact List.pairwise_cons.mpr ⟨above, tail⟩
      · next different =>
        refine List.pairwise_cons.mpr ⟨fun other present => ?_, ih tail⟩
        rcases mem_of_mem_insert present with rfl | later
        · exact String.not_le.mp fun le =>
            different (String.le_antisymm le (String.not_lt.mp notBelow))
        · exact above other later

/-- A key above all others goes to the end. -/
theorem insert_of_above (above : ∀ member ∈ members, member.1 < key) :
    insert key value members = members ++ [(key, value)] := by
  induction members with
  | nil => rfl
  | cons member rest ih =>
    have first : member.1 < key := above member List.mem_cons_self
    have later := ih fun other present => above other (List.mem_cons_of_mem _ present)
    have notBefore : ¬ key < member.1 := String.lt_asymm first
    have different : key ≠ member.1 := (String.ne_of_lt first).symm
    rw [insert, if_neg notBefore, if_neg different, later, List.cons_append]

/-- Nothing but the given members is put together. -/
theorem mem_of_mem_ofList {member : String × α} (present : member ∈ ofList members) :
    member ∈ members := by
  have within : ∀ other ∈ ofList members, other ∈ members :=
    List.foldlRecOn members _ (motive := fun sorted => ∀ other ∈ sorted, other ∈ members) nofun
      fun sorted known added given other present => by
        rcases mem_of_mem_insert present with rfl | before
        · exact given
        · exact known other before
  exact within member present

/-- What is added is there. -/
theorem mem_insert_self (key : String) (value : α) (members : List (String × α)) :
    (key, value) ∈ insert key value members := by
  induction members with
  | nil => exact List.mem_singleton_self _
  | cons first rest ih =>
    rw [insert]
    split
    · exact List.mem_cons_self
    split
    · exact List.mem_cons_self
    · exact List.mem_cons_of_mem _ ih

/-- Adding a member keeps those with other keys. -/
theorem mem_insert_of_ne {member : String × α} (present : member ∈ members)
    (different : member.1 ≠ key) : member ∈ insert key value members := by
  induction members with
  | nil => cases present
  | cons first rest ih =>
    rw [insert]
    split
    · exact List.mem_cons_of_mem _ present
    split
    · next same =>
      rcases List.mem_cons.mp present with rfl | later
      · exact absurd same.symm different
      · exact List.mem_cons_of_mem _ later
    · rcases List.mem_cons.mp present with rfl | later
      · exact List.mem_cons_self
      · exact List.mem_cons_of_mem _ (ih later)

/-- A member stays as long as its key is not added again. -/
theorem mem_foldl_insert_of_mem {member : String × α} (later : List (String × α))
    (fresh : member.1 ∉ keys later) {sorted : List (String × α)} (present : member ∈ sorted) :
    member ∈ later.foldl (fun sorted member => insert member.1 member.2 sorted) sorted := by
  induction later generalizing sorted with
  | nil => exact present
  | cons next rest ih =>
    rw [keys, List.map_cons] at fresh
    have different : member.1 ≠ next.1 := List.ne_of_not_mem_cons fresh
    exact ih (List.not_mem_of_not_mem_cons fresh) (mem_insert_of_ne present different)

/-- Of members with distinct keys each is put into the object. -/
theorem mem_ofList_of_nodup (distinct : (keys members).Nodup) {member : String × α}
    (present : member ∈ members) : member ∈ ofList members := by
  obtain ⟨earlier, later, rfl⟩ := List.append_of_mem present
  rw [keys, List.map_append, List.map_cons, List.nodup_append, List.nodup_cons] at distinct
  rw [ofList, List.foldl_append, List.foldl_cons]
  exact mem_foldl_insert_of_mem later distinct.2.1.1 (mem_insert_self member.1 member.2 _)

/-- The keys of an object ascend. -/
theorem ordered_ofList (members : List (String × α)) : Ordered (ofList members) :=
  List.foldlRecOn members _ (motive := Ordered) List.Pairwise.nil
    fun _ ordered _ _ => ordered_insert ordered

/-- Members whose keys ascend, and ascend beyond those there are, go to the end as they stand. -/
theorem foldl_insert_of_ordered (earlier later : List (String × α))
    (ordered : Ordered (earlier ++ later)) :
    later.foldl (fun sorted member => insert member.1 member.2 sorted) earlier =
      earlier ++ later := by
  induction later generalizing earlier with
  | nil => exact (List.append_nil earlier).symm
  | cons member rest ih =>
    have above : ∀ other ∈ earlier, other.1 < member.1 := fun other present =>
      (List.pairwise_append.mp ordered).2.2 other present member List.mem_cons_self
    have moved : earlier ++ member :: rest = earlier ++ [member] ++ rest := by
      rw [List.append_assoc, List.singleton_append]
    rw [List.foldl_cons, insert_of_above above, moved]
    exact ih (earlier ++ [member]) (moved ▸ ordered)

/-- Members whose keys ascend are put together as they stand. -/
theorem ofList_of_ordered (ordered : Ordered members) : ofList members = members :=
  foldl_insert_of_ordered [] members ordered

end Redaction.Members

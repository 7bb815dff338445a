import Redaction.Text.LowerCase

/-!
# Additional names

For a single rendering the caller may list further field names that are secret. Case does not
matter: names are kept and compared in lower case. The set is the ascending list of its names, so
two sets with the same names are equal.
-/

namespace Redaction

/-- A set of field names in lower case. -/
structure AdditionalNames where
  /-- The names, ascending. -/
  names : List String
  /-- No name stands twice, and all stand in order. -/
  ordered : names.Pairwise (· < ·)
deriving DecidableEq

namespace AdditionalNames

/-- Puts a name into its place among ascending names, unless it is there. -/
def place (name : String) : List String → List String
  | [] => [name]
  | first :: rest =>
    if name < first then name :: first :: rest
    else if name = first then first :: rest
    else first :: place name rest

/-- Placing a name adds this name and no other. -/
theorem mem_place {name other : String} {names : List String} :
    other ∈ place name names ↔ other = name ∨ other ∈ names := by
  induction names with
  | nil => simp [place]
  | cons first rest ih =>
    unfold place
    split
    · simp
    · split
      · next same =>
        subst same
        simp
      · rw [List.mem_cons, List.mem_cons, ih]
        exact or_left_comm

/-- Placing a name keeps the order. -/
theorem ordered_place {name : String} {names : List String} (ordered : names.Pairwise (· < ·)) :
    (place name names).Pairwise (· < ·) := by
  induction names with
  | nil => simp [place]
  | cons first rest ih =>
    obtain ⟨above, tail⟩ := List.pairwise_cons.mp ordered
    unfold place
    split
    · next below =>
      refine List.pairwise_cons.mpr ⟨fun other member => ?_, ordered⟩
      rcases List.mem_cons.mp member with rfl | later
      · exact below
      · exact String.lt_trans below (above other later)
    · next notBelow =>
      split
      · exact ordered
      · next different =>
        refine List.pairwise_cons.mpr ⟨fun other member => ?_, ih tail⟩
        rcases mem_place.mp member with rfl | later
        · exact String.not_le.mp fun le =>
            different (String.le_antisymm le (String.not_lt.mp notBelow))
        · exact above other later

/-- The set without names. -/
def empty : AdditionalNames := ⟨[], List.Pairwise.nil⟩

/-- The set with one more name. -/
def insert (set : AdditionalNames) (name : String) : AdditionalNames :=
  ⟨place (Text.lowerCase name) set.names, ordered_place set.ordered⟩

/-- The set with more names. -/
def insertAll (set : AdditionalNames) (names : List String) : AdditionalNames :=
  names.foldl insert set

/-- The set of a list of names. -/
def ofList (names : List String) : AdditionalNames := empty.insertAll names

/-- Whether a name is in the set, in whatever case it is given. -/
def contains (set : AdditionalNames) (name : String) : Bool :=
  !set.names.isEmpty && set.names.contains (Text.lowerCase name)

/-- Whether there are no names. -/
def isEmpty (set : AdditionalNames) : Bool := set.names.isEmpty

end AdditionalNames

end Redaction

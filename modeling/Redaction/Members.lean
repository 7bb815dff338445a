/-!
# The members of an object

An object is the list of its members, ordered by key: keys are compared by code points and each
occurs once. Adding a member puts it into its place and replaces the value that its key had.
-/

namespace Redaction.Members

variable {α β : Type}

/-- Adds a member, or replaces the value of its key. -/
def insert (key : String) (value : α) : List (String × α) → List (String × α)
  | [] => [(key, value)]
  | (k, v) :: rest =>
    if key < k then (key, value) :: (k, v) :: rest
    else if key = k then (key, value) :: rest
    else (k, v) :: insert key value rest

/-- The members written down in any order; of two with the same key the later one counts. -/
def ofList (members : List (String × α)) : List (String × α) :=
  members.foldl (fun sorted member => insert member.1 member.2 sorted) []

/-- The value of a key. -/
def find? (key : String) : List (String × α) → Option α
  | [] => none
  | (k, v) :: rest => if k = key then some v else find? key rest

/-- The keys in order. -/
def keys (members : List (String × α)) : List String := members.map Prod.fst

/-- Applies a function to each value. -/
def mapValues (f : α → β) (members : List (String × α)) : List (String × β) :=
  members.map fun member => (member.1, f member.2)

/-- Whether the keys ascend, and so are pairwise distinct. -/
def Ordered (members : List (String × α)) : Prop := members.Pairwise fun a b => a.1 < b.1

end Redaction.Members

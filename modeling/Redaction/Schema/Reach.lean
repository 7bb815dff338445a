import Redaction.Schema.Registry

/-!
# What a message type leads to

A type leads to the types of its message fields, to those that they lead to, and so on. The search
takes each type out of those not yet visited, so it ends also where types lead back to each other.
-/

namespace Redaction.Schema

/-- The names of the types of a message's fields. -/
def Message.references (message : Message) : List String :=
  message.fields.filterMap Field.typeName?

/-- What there is on the way through the types that a type leads to, itself included. -/
structure Reach where
  /-- Whether some field is marked as secret. -/
  marked : Bool
  /-- Whether some field refers to a type that is missing. -/
  unresolved : Bool
  /-- The names of all fields. -/
  names : List String
deriving DecidableEq, Repr

namespace Reach

/-- What there is before any type has been visited. -/
def nothing : Reach := ⟨false, false, []⟩

/-- The fields of one more type. -/
def visit (reach : Reach) (message : Message) : Reach :=
  { reach with
    marked := reach.marked || message.fields.any Field.sensitive
    names := message.fields.map Field.name ++ reach.names }

/-- A reference to a missing type. -/
def miss (reach : Reach) : Reach := { reach with unresolved := true }

end Reach

namespace Registry

/-- The search through the types that the pending names lead to. A name that is not among the
unvisited types has been visited before, or is missing from the registry. -/
def reachFrom (registry : Registry) (unvisited : List Message) (pending : List String)
    (reach : Reach) : Reach :=
  match pending with
  | [] => reach
  | name :: rest =>
    match _found : unvisited.find? fun message => message.name == name with
    | some message =>
      registry.reachFrom (unvisited.erase message) (message.references ++ rest)
        (reach.visit message)
    | none =>
      registry.reachFrom unvisited rest
        (if (registry.find? name).isSome then reach else reach.miss)
  termination_by (unvisited.length, pending.length)
  decreasing_by
    · have member : message ∈ unvisited := List.mem_of_find?_eq_some _found
      have shorter := List.length_erase_of_mem member
      have positive := List.length_pos_of_mem member
      exact Prod.Lex.left _ _ (by omega)
    · exact Prod.Lex.right _ (by simp)

/-- What a type of the registry leads to. -/
def reach (registry : Registry) (name : String) : Reach :=
  registry.reachFrom registry.messages [name] .nothing

end Registry

end Redaction.Schema

import Redaction.Schema.Registry

/-!
# Types that describe themselves

A provider is a message type that knows its own description and the types to which its fields lead.
Registering a provider adds its description and then everything to which it leads, depth first. A
name that is taken ends the search at this place, which makes it end also where types lead back to
each other.
-/

namespace Redaction.Schema

/-- A message type that describes itself. -/
structure Provider where
  /-- The word by which other providers mean this one. -/
  ident : String
  /-- The name of the type of its messages. -/
  typeName : String
  /-- The description, which as a rule has the same name. -/
  message : Message
  /-- The providers that are registered after this one, in order. -/
  dependencies : List String
deriving DecidableEq

namespace Provider

/-- The first provider that is meant by a word. -/
def find? (providers : List Provider) (ident : String) : Option Provider :=
  List.find? (fun provider => provider.ident == ident) providers

/-- A provider that is found is one of those among which it was sought. -/
theorem mem_of_find?_eq_some {providers : List Provider} {ident : String} {provider : Provider}
    (found : find? providers ident = some provider) : provider ∈ providers :=
  List.mem_of_find?_eq_some found

end Provider

namespace Registry

/-- The providers whose descriptions have names that are still free. -/
def addable (registry : Registry) (providers : List Provider) : List Provider :=
  providers.filter fun provider => decide (provider.message.name ∉ registry.names)

/-- Once a description has been added, the providers of its name drop out. -/
theorem addable_of_insert? {registry larger : Registry} {message : Message}
    (providers : List Provider) (added : registry.insert? message = some larger) :
    larger.addable providers =
      (registry.addable providers).filter fun provider =>
        decide (provider.message.name ≠ message.name) := by
  have names : larger.names = registry.names ++ [message.name] := by
    simp [Registry.names, (insert?_eq_some_iff.mp added).2]
  unfold addable
  rw [List.filter_filter]
  refine List.filter_congr fun provider _ => ?_
  rw [names, ← Bool.decide_and, decide_eq_decide, List.mem_append, List.mem_singleton, not_or,
    and_comm]

/-- Adding the description of a provider leaves fewer that can still be added. -/
theorem length_addable_lt {registry larger : Registry} {providers : List Provider}
    {provider : Provider} (member : provider ∈ providers)
    (added : registry.insert? provider.message = some larger) :
    (larger.addable providers).length < (registry.addable providers).length := by
  have free := (insert?_eq_some_iff.mp added).1
  rw [addable_of_insert? providers added, List.length_filter_lt_length_iff_exists]
  exact ⟨provider, List.mem_filter.mpr ⟨member, decide_eq_true free⟩, by simp⟩

/-- The registry after all pending providers have been registered one after the other, each of them
together with everything to which it leads. -/
def registerAll (providers : List Provider) (registry : Registry) (pending : List String) :
    Registry :=
  match pending with
  | [] => registry
  | ident :: rest =>
    match _found : Provider.find? providers ident with
    | none => registerAll providers registry rest
    | some provider =>
      match _added : registry.insert? provider.message with
      | none => registerAll providers registry rest
      | some larger => registerAll providers larger (provider.dependencies ++ rest)
  termination_by ((registry.addable providers).length, pending.length)
  decreasing_by
    · exact Prod.Lex.right _ (by simp)
    · exact Prod.Lex.right _ (by simp)
    · exact Prod.Lex.left _ _
        (length_addable_lt (Provider.mem_of_find?_eq_some _found) _added)

/-- The registry of a provider and everything to which it leads. -/
def forProvider (providers : List Provider) (provider : Provider) : Registry :=
  registerAll providers empty [provider.ident]

end Registry

end Redaction.Schema

import Redaction.Schema.Provider

/-!
# Registries that are kept

The registry of a type is built when it is asked for the first time, and is kept from then on. A box
describes itself as what stands inside it, but is a type of its own and has an entry of its own.
-/

namespace Redaction.Schema

/-- What tells the types of a program apart. -/
structure TypeKey where
  /-- The word of the provider. -/
  ident : String
  /-- How many boxes there are around it. -/
  boxes : Nat := 0
deriving DecidableEq, Repr

/-- The registries that have been built, each under the type for which it was asked. -/
structure Cache where
  /-- The entries, the latest one first. -/
  entries : List (TypeKey × Registry)

namespace Cache

/-- The cache before anything has been asked for. -/
def empty : Cache := ⟨[]⟩

/-- The registry that is kept for a type. -/
def find? (cache : Cache) (key : TypeKey) : Option Registry := cache.entries.lookup key

/-- The registry of a type and everything to which it leads, and what is kept afterwards. -/
def request (providers : List Provider) (cache : Cache) (key : TypeKey) : Registry × Cache :=
  match cache.find? key with
  | some registry => (registry, cache)
  | none =>
    let registry := Registry.registerAll providers .empty [key.ident]
    (registry, ⟨(key, registry) :: cache.entries⟩)

/-- What is kept after some types have been asked for, one after the other. -/
def after (providers : List Provider) (keys : List TypeKey) : Cache :=
  keys.foldl (fun cache key => (cache.request providers key).2) empty

/-- Whether each type has the registry that would be built for it now. -/
def Fresh (providers : List Provider) (cache : Cache) : Prop :=
  ∀ key registry, cache.find? key = some registry →
    registry = Registry.registerAll providers .empty [key.ident]

variable {providers : List Provider} {cache : Cache}

/-- A request is answered as if nothing had been kept. -/
theorem Fresh.fst_request (fresh : cache.Fresh providers) (key : TypeKey) :
    (cache.request providers key).1 = Registry.registerAll providers .empty [key.ident] := by
  unfold request
  cases kept : cache.find? key with
  | some registry => exact fresh key registry kept
  | none => rfl

/-- A request leaves the cache fresh. -/
theorem Fresh.snd_request (fresh : cache.Fresh providers) (key : TypeKey) :
    (cache.request providers key).2.Fresh providers := by
  unfold request
  cases missing : cache.find? key with
  | some registry => exact fresh
  | none =>
    intro other registry found
    rw [find?, List.lookup_cons] at found
    split at found
    · next same =>
      rw [beq_iff_eq.mp same]
      exact (Option.some.inj found).symm
    · exact fresh other registry found

/-- Requests leave the cache fresh. -/
theorem Fresh.foldl (fresh : cache.Fresh providers) (keys : List TypeKey) :
    (keys.foldl (fun cache key => (cache.request providers key).2) cache).Fresh providers := by
  induction keys generalizing cache with
  | nil => exact fresh
  | cons key rest ih => exact ih (fresh.snd_request key)

/-- What is kept after any requests is fresh. -/
theorem fresh_after (keys : List TypeKey) : (after providers keys).Fresh providers := by
  refine Fresh.foldl (fun key registry found => ?_) keys
  cases found

end Cache

end Redaction.Schema

import Redaction.Catalogue.Samples
import Redaction.Catalogue.Storage
import Redaction.Sanitizer.Basic

/-!
# The catalogue

The catalogue lists message types under keys. An entry holds what a message of the type brings along
when it is sanitized: the name of the type, and the registry of everything to which the type leads.
-/

namespace Redaction.Catalogue

open Redaction.Derivation
open Schema (Provider Registry)

/-- A message type of the catalogue. -/
structure Entry where
  /-- The name of the type. -/
  typeName : String
  /-- The registry of everything to which the type leads. -/
  registry : Registry
deriving DecidableEq

namespace Entry

/-- The entry of a type that describes itself, found by its word among others. -/
def ofProviders? (providers : List Provider) (ident : String) : Option Entry := do
  let provider ← Provider.find? providers ident
  some ⟨provider.typeName, .forProvider providers provider⟩

/-- The entry of a derived type. -/
def ofFamily? (family : Except Complaint Family) (ident : String) : Option Entry := do
  ofProviders? (← (← family.toOption).providers?) ident

/-- The entry under a key. A box has the entry of what stands inside it. -/
def ofKey? : String → Option Entry
  | "v1.CreateVolumeRequest" => ofFamily? Storage.presentFamily "CreateVolumeRequest"
  | "v1.VolumeCapability" => ofFamily? Storage.presentFamily "VolumeCapability"
  | "v1.VolumeContentSource" => ofFamily? Storage.presentFamily "VolumeContentSource"
  | "v1.TopologyRequirement" => ofFamily? Storage.presentFamily "TopologyRequirement"
  | "future.CreateVolumeRequest" => ofFamily? Storage.laterFamily "CreateVolumeRequest"
  | "v0.CreateVolumeRequest" => ofFamily? Storage.earlyFamily "CreateVolumeRequest"
  | "BoxedNode" => ofFamily? Samples.family "Node"
  | "Holder" => ofProviders? [Samples.holder] "Holder"
  | "Misnamed" => ofProviders? [Samples.misnamed] "Misnamed"
  | key => ofFamily? Samples.family key

/-- A message of the type with the data given. -/
def typed (entry : Entry) (data : Serial.Data) : TypedMessage :=
  { typeName := entry.typeName, registry := entry.registry, data }

end Entry

end Redaction.Catalogue

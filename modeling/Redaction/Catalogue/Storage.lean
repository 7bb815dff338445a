import Redaction.Catalogue.Basic

/-!
# Requests to a storage driver

The request that creates a volume, with everything that it leads to, in three states of the
interface: the present one, a later one with more secrets, and an early one in which secrets could
only be told by the end of their names.
-/

namespace Redaction.Catalogue.Storage

open Redaction.Derivation

/-- The package of the present interface. -/
def present : Meta := setting "package" "csi.v1"

/-- The package of the early interface. -/
def early : Meta := setting "package" "csi.v0"

/-- What every request to create a volume has before its secrets. -/
def commonFields : List NamedField :=
  [field "name" string,
    field "capacity_range" (optional (.named "CapacityRange")),
    field "volume_capabilities" (listOf (.named "VolumeCapability")),
    field "parameters" textMap]

/-- The source of the content of a new volume, as a field. -/
def sourceField : NamedField :=
  field "volume_content_source" (optional (.named "VolumeContentSource"))

/-- The places where a new volume must be reachable, as a field. -/
def placeField : NamedField :=
  field "accessibility_requirements" (optional (.named "TopologyRequirement"))

/-- How a volume will be accessed, as fields. -/
def accessFields : List NamedField :=
  [field "access_type" (optional (.named "AccessType")) [mark "oneof"],
    field "access_mode" (optional (.named "AccessMode"))]

/-- What a new volume is made from, as a field. -/
def contentField : NamedField :=
  field "r#type" (optional (.named "ContentType")) [mark "oneof"]

/-- The message types of the present interface. -/
def messages : List Item :=
  [message "CreateVolumeRequest" [present]
      (commonFields ++ [field "secrets" textMap [mark "secret"], sourceField, placeField]),
    message "CapacityRange" [present]
      [field "required_bytes" integer, field "limit_bytes" integer],
    message "VolumeCapability" [present] accessFields,
    message "BlockVolume" [setting "name" "csi.v1.VolumeCapability.BlockVolume"] [],
    message "MountVolume" [setting "name" "csi.v1.VolumeCapability.MountVolume"]
      [field "fs_type" string, field "mount_flags" (listOf string)],
    message "AccessMode" [setting "name" "csi.v1.VolumeCapability.AccessMode"]
      [field "mode" (.named "AccessModeKind") [mark "enumeration"]],
    message "VolumeContentSource" [present] [contentField],
    message "SnapshotSource" [setting "name" "csi.v1.VolumeContentSource.SnapshotSource"]
      [field "snapshot_id" string],
    message "VolumeSource" [setting "name" "csi.v1.VolumeContentSource.VolumeSource"]
      [field "volume_id" string],
    message "TopologyRequirement" [present]
      [field "requisite" (listOf (.named "Topology")),
        field "preferred" (listOf (.named "Topology"))],
    message "Topology" [present] [field "segments" textMap]]

/-- The groups of all states of the interface. -/
def groups : List Item :=
  [group "AccessType"
      [alternative "Block" (.named "BlockVolume"), alternative "Mount" (.named "MountVolume")],
    group "ContentType"
      [alternative "Snapshot" (.named "SnapshotSource"),
        alternative "Volume" (.named "VolumeSource")]]

/-- The message types that the later interface changes. -/
def laterMessages : List Item :=
  [message "CreateVolumeRequest" [present]
      (commonFields ++
        [field "seecreets" textMap [mark "secret"], sourceField, placeField,
          field "new_secret_int" integer [mark "secret"],
          field "maybe_secret_map" (mapOf integer (.named "VolumeCapability"))]),
    message "VolumeCapability" [present]
      (accessFields ++ [field "array_secret" string [mark "secret"]]),
    message "VolumeContentSource" [present]
      [contentField, field "nested_secret_field" string [mark "secret"]],
    message "VolumeSource" [setting "name" "csi.v1.VolumeContentSource.VolumeSource"]
      [field "volume_id" string, field "oneof_secret_field" string [mark "secret"]]]

/-- The request of the early interface. -/
def earlyMessages : List Item :=
  [message "CreateVolumeRequest" [early]
      (commonFields ++ [field "controller_create_secrets" textMap, placeField])]

/-- The message types of the present interface that are not among those declared anew. -/
def unchanged (declared : List Item) : List Item :=
  messages.filter fun item => declared.all fun other => other.path != item.path

/-- The family of the present interface. -/
def presentFamily : Except Complaint Family := Family.derive messages groups

/-- The family of the later interface. What it does not change it shares with the present one. -/
def laterFamily : Except Complaint Family :=
  Family.derive (laterMessages ++ unchanged laterMessages) groups

/-- The family of the early interface, whose request leads to types of the present one. -/
def earlyFamily : Except Complaint Family :=
  Family.derive (earlyMessages ++ unchanged earlyMessages) groups

end Redaction.Catalogue.Storage

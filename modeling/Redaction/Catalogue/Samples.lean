import Redaction.Catalogue.Basic

/-!
# Sample messages

Message types that show one feature each: secrets of different shapes, types that lead back to
themselves, other names than those of the declaration, all shapes of fields, and no fields at all.
Two more types describe themselves by hand, and do it badly.
-/

namespace Redaction.Catalogue.Samples

open Redaction.Derivation
open Schema (Declaration Field Message Provider)

/-- The package of the samples. -/
def package : Meta := setting "package" "test"

/-- The derived message types. -/
def messages : List Item :=
  [message "Credentials" [package]
      [field "name" string, field "secret_map" textMap [mark "secret"],
        field "token" (optional string) [mark "secret"]],
    message "Node" [package]
      [field "name" string, field "token" string [mark "secret"],
        field "children" (listOf (.named "Node")),
        field "next" (optional (boxed (.named "Node")))],
    message "Renamed" [setting "name" "test.Renamed"]
      [field "volume_id" string [setting "name" "volumeId"],
        field "secret_ref" string [mark "secret", setting "name" "secretRef"],
        field "cache" (.named "u64") [mark "skip"], field "debug_note" string [mark "skip"]],
    message "Shapes" [package]
      [field "labels" (.applied "HashMap" [string, string]), field "raw" bytes,
        field "raws" (listOf bytes), field "modes" (listOf (.named "Mode")) [mark "enumeration"],
        field "opaque" (.named "Foreign") [mark "scalar"],
        field "by_id" (mapOf integer (.named "Credentials")),
        field "many" (listOf (optional (.named "Credentials"))), field "r#type" string,
        field "hidden" (optional (.named "Pick")) [mark "oneof", mark "secret"],
        field "pick" (optional (.named "Pick")) [mark "oneof"]],
    message "Bare" [] []]

/-- The derived groups. -/
def groups : List Item :=
  [group "Pick"
      [alternative "PlainText" string, alternative "Token" string [mark "secret"],
        alternative "Cred" (.named "Credentials"),
        alternative "AccessMode" (.named "Mode") [mark "enumeration"]]]

/-- The family of the derived samples. -/
def family : Except Complaint Family := Family.derive messages groups

/-- A type that refers to another one and never registers it. -/
def holder : Provider where
  ident := "Holder"
  typeName := "test.Holder"
  message := .ofDeclarations "test.Holder"
    [.field (.scalar "plain"), .field (.message "opaque" "test.Opaque")]
  dependencies := []

/-- A type whose messages go by another name than its description. -/
def misnamed : Provider where
  ident := "Misnamed"
  typeName := "test.Alias"
  message := .ofDeclarations "test.Real" [.field (.scalar "plain")]
  dependencies := []

end Redaction.Catalogue.Samples

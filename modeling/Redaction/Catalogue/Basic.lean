import Redaction.Derivation.Family

/-!
# How the catalogue is written

The message types of the catalogue are derived from declarations. This module gives the words in
which the declarations are written down.
-/

namespace Redaction.Catalogue

open Redaction.Derivation

/-- An option that is one word. -/
def mark (word : String) : Meta := .option [word] .nothing

/-- An option that sets a text. -/
def setting (word text : String) : Meta := .option [word] (.value (.text text))

/-- The attributes with these options. -/
def options (items : List Meta) : List Attribute :=
  if items.isEmpty then [] else [⟨["proto"], .options items⟩]

/-- The declaration of a field. -/
def field (ident : String) (type : TypeExpr) (items : List Meta := []) : NamedField :=
  { ident, type, attributes := options items }

/-- The declaration of an alternative that wraps one value. -/
def alternative (ident : String) (type : TypeExpr) (items : List Meta := []) : Variant :=
  { ident, fields := .tuple [{ type }], attributes := options items }

/-- The declaration of a message type. -/
def message (ident : String) (items : List Meta) (fields : List NamedField) : Item :=
  { ident, attributes := options items, body := .struct (.named fields) }

/-- The declaration of a group. -/
def group (ident : String) (alternatives : List Variant) : Item :=
  { ident, body := .enum alternatives }

/-- The type of texts. -/
def string : TypeExpr := .named "String"

/-- The type of whole numbers. -/
def integer : TypeExpr := .named "i64"

/-- The type of values that may be absent. -/
def optional (type : TypeExpr) : TypeExpr := .applied "Option" [type]

/-- The type of boxed values. -/
def boxed (type : TypeExpr) : TypeExpr := .applied "Box" [type]

/-- The type of lists. -/
def listOf (type : TypeExpr) : TypeExpr := .applied "Vec" [type]

/-- The type of maps. -/
def mapOf (key value : TypeExpr) : TypeExpr := .applied "BTreeMap" [key, value]

/-- The type of maps from texts to texts. -/
def textMap : TypeExpr := mapOf string string

/-- The type of byte strings. -/
def bytes : TypeExpr := listOf (.named "u8")

end Redaction.Catalogue

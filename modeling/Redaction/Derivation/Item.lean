import Redaction.Derivation.Attribute
import Redaction.Derivation.TypeExpr

/-!
# Declarations of types

What a schema can be derived from: the declaration of a type with its fields or variants. Several
declarations of a program may share a name; what tells them apart is the path to each.
-/

namespace Redaction.Derivation

/-- A name without the mark that lets a keyword be a name. -/
def plainIdent (ident : String) : String :=
  match ident.toList with
  | 'r' :: '#' :: rest => String.ofList rest
  | _ => ident

/-- A field with a name. -/
structure NamedField where
  /-- The name. -/
  ident : String
  /-- The type. -/
  type : TypeExpr
  /-- The attributes. -/
  attributes : List Attribute := []

/-- A field without a name. -/
structure TupleField where
  /-- The type. -/
  type : TypeExpr
  /-- The attributes. -/
  attributes : List Attribute := []

/-- The fields of a struct or a variant. -/
inductive Fields where
  /-- Fields with names. -/
  | named (fields : List NamedField)
  /-- Fields without names. -/
  | tuple (fields : List TupleField)
  /-- No body at all. -/
  | unit

/-- A variant of an enumeration. -/
structure Variant where
  /-- The name. -/
  ident : String
  /-- The fields. -/
  fields : Fields
  /-- The attributes. -/
  attributes : List Attribute := []

/-- What a declaration declares. -/
inductive ItemBody where
  /-- A struct. -/
  | struct (fields : Fields)
  /-- An enumeration. -/
  | enum (variants : List Variant)
  /-- A union. -/
  | union (fields : List NamedField)

/-- The declaration of a type. -/
structure Item where
  /-- The name. -/
  ident : String
  /-- The attributes. -/
  attributes : List Attribute := []
  /-- The parameters. -/
  parameters : List TypeExpr := []
  /-- What is declared. -/
  body : ItemBody
  /-- The path under which the program has the declaration. -/
  path : String := plainIdent ident

end Redaction.Derivation

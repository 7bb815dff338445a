import Redaction.Derivation.TypeExpr
import Redaction.Schema.Field

/-!
# The shape of a field

How many values a field has, and of which type, can be read off the type of the field.
-/

namespace Redaction.Derivation

/-- How many values a field has, and the type of one of them. -/
structure FieldShape where
  /-- How many values there are. -/
  cardinality : Schema.Cardinality
  /-- The type of one value. -/
  element : TypeExpr

namespace TypeExpr

/-- The type of the values, if the type is that of a map. -/
def mapValue? (type : TypeExpr) : Option TypeExpr :=
  (type.typeArgument? "HashMap" 1).or (type.typeArgument? "BTreeMap" 1)

/-- The type of the items, if the type is that of a list; bytes are none. -/
def listItem? (type : TypeExpr) : Option TypeExpr :=
  if type.isBytes then none else type.typeArgument? "Vec" 0

/-- The shape of a field of this type. Wrappers do not matter, neither around the whole nor around a
single value. -/
def shape (type : TypeExpr) : FieldShape :=
  let inner := type.unwrapped
  match inner.listItem?, inner.mapValue? with
  | some item, _ => ⟨.repeated, item.unwrapped⟩
  | none, some value => ⟨.map, value.unwrapped⟩
  | none, none => ⟨.singular, inner⟩

end TypeExpr

end Redaction.Derivation

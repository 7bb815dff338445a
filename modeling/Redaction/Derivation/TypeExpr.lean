/-!
# Type expressions

The types of fields as they are written in a declaration. Names may be qualified by a path and carry
arguments; only the last part of a path says which type is meant.
-/

namespace Redaction.Derivation

mutual

/-- A type as it is written. -/
inductive TypeExpr where
  /-- A path to a type, which may start at the root of all names. -/
  | path (absolute : Bool) (segments : List Segment)
  /-- A type that belongs to another one. The last part of the path names it, and the parts before
  say in which role. -/
  | associated (owner : TypeExpr) (segments : List Segment)
  /-- A reference, whose lifetime may be named, and through which the target may be changeable. -/
  | reference (lifetime : Option String) (target : TypeExpr) (changeable : Bool := false)
  /-- A tuple. -/
  | tuple (items : List TypeExpr)
  /-- A list of fixed length, the number kept as it is written. -/
  | array (element : TypeExpr) (length : String)
  /-- A list of any length. -/
  | slice (element : TypeExpr)
  /-- A type of any other form, such as that of functions or of raw pointers. Nothing looks into it,
  so it is kept as it is written. -/
  | other (written : String)

/-- One part of a path. -/
inductive Segment where
  /-- A mere name. -/
  | plain (name : String)
  /-- A name with arguments between angle brackets, of which there may be none. -/
  | generic (name : String) (arguments : List Argument)
  /-- A name with the parameters of a function between round brackets, which are kept together with
  the result as they are written. -/
  | function (name : String) (written : String)

/-- An argument between angle brackets. -/
inductive Argument where
  /-- A type. -/
  | type (value : TypeExpr)
  /-- A lifetime. -/
  | lifetime (name : String)
  /-- A number, or the binding of a name, kept as it is written. -/
  | constant (written : String)

end

instance : Inhabited TypeExpr := ⟨.tuple []⟩

namespace Segment

/-- The name of a part. -/
def name : Segment → String
  | .plain name => name
  | .generic name _ => name
  | .function name _ => name

/-- Whether a part has arguments. -/
def hasArguments : Segment → Bool
  | .plain _ => false
  | .generic _ arguments => !arguments.isEmpty
  | .function _ _ => true

end Segment

/-- The type that an argument is, if it is one. -/
def Argument.type? : Argument → Option TypeExpr
  | .type value => some value
  | .lifetime _ | .constant _ => none

/-- The name of the lifetime that an argument is, if it is one. -/
def Argument.lifetime? : Argument → Option String
  | .lifetime name => some name
  | .type _ | .constant _ => none

namespace TypeExpr

/-- The type that is written as one name. -/
def named (name : String) : TypeExpr := .path false [.plain name]

/-- The type that is written as a name with types as its arguments. -/
def applied (name : String) (arguments : List TypeExpr) : TypeExpr :=
  .path false [.generic name (arguments.map .type)]

/-- The last part of a path; types that belong to other types have none. -/
def lastSegment? : TypeExpr → Option Segment
  | .path _ segments => segments.getLast?
  | _ => none

/-- The type at a place among the type arguments, if the last part of the path has the name given
and has arguments at all. -/
def typeArgument? (type : TypeExpr) (name : String) (place : Nat) : Option TypeExpr :=
  match type.lastSegment? with
  | some (.generic found arguments) =>
    if found = name then (arguments.filterMap Argument.type?)[place]? else none
  | _ => none

/-- A type argument is smaller than the type that it is an argument of. -/
theorem sizeOf_typeArgument?_lt {type argument : TypeExpr} {name : String} {place : Nat}
    (found : type.typeArgument? name place = some argument) : sizeOf argument < sizeOf type := by
  unfold typeArgument? at found
  split at found
  · next last arguments segment =>
    split at found
    · have member : argument ∈ arguments.filterMap Argument.type? :=
        List.mem_of_getElem? found
      obtain ⟨given, among, isType⟩ := List.mem_filterMap.mp member
      have inside : sizeOf given < sizeOf arguments := List.sizeOf_lt_of_mem among
      cases given with
      | type value =>
        rw [Argument.type?, Option.some.injEq] at isType
        subst isType
        cases type with
        | path absolute segments =>
          have listed : Segment.generic last arguments ∈ segments :=
            List.mem_of_getLast? segment
          have around := List.sizeOf_lt_of_mem listed
          simp only [TypeExpr.path.sizeOf_spec, Segment.generic.sizeOf_spec,
            Argument.type.sizeOf_spec] at *
          omega
        | _ => nomatch segment
      | lifetime _ => nomatch isType
      | constant _ => nomatch isType
    · nomatch found
  · nomatch found

/-- What stands inside one wrapper that does not change the data: an optional value or a box. -/
def wrapped? (type : TypeExpr) : Option TypeExpr :=
  (type.typeArgument? "Option" 0).or (type.typeArgument? "Box" 0)

/-- What stands inside a wrapper is smaller than the whole. -/
theorem sizeOf_wrapped?_lt {type inner : TypeExpr} (found : type.wrapped? = some inner) :
    sizeOf inner < sizeOf type := by
  rcases Option.or_eq_some_iff.mp found with optional | ⟨_, box⟩
  · exact sizeOf_typeArgument?_lt optional
  · exact sizeOf_typeArgument?_lt box

/-- The type without the wrappers around it. -/
def unwrapped (type : TypeExpr) : TypeExpr :=
  match _found : type.wrapped? with
  | some inner => inner.unwrapped
  | none => type
  termination_by sizeOf type
  decreasing_by exact sizeOf_wrapped?_lt _found

/-- Whether the type is written as the bare name of the type of bytes. -/
def isByte : TypeExpr → Bool
  | .path false [.plain name] => name == "u8"
  | _ => false

/-- Whether the type is a list of bytes, which counts as one value. -/
def isBytes (type : TypeExpr) : Bool := (type.typeArgument? "Vec" 0).any isByte

/-- The names of the types of single values. -/
def scalarNames : List String :=
  ["i8", "i16", "i32", "i64", "i128", "isize", "u8", "u16", "u32", "u64", "u128", "usize", "f32",
    "f64", "bool", "char", "str", "String", "Bytes"]

/-- Whether the type is that of single values: bytes, or a known name without arguments. References
do not matter. Every other type is taken for a message. -/
def isScalar : TypeExpr → Bool
  | .reference _ target _ => target.isScalar
  | .path absolute segments =>
    (TypeExpr.path absolute segments).isBytes ||
      match segments.getLast? with
      | some segment => !segment.hasArguments && scalarNames.contains segment.name
      | none => false
  | _ => false

end TypeExpr

end Redaction.Derivation

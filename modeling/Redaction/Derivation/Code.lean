import Redaction.Derivation.Implementation
import Redaction.Text.Alphanumeric
import Redaction.Text.Quoted

/-!
# Code of derived implementations

A derived implementation is written as program text, token by token. Between two tokens a blank is
needed only where two words would run together.
-/

namespace Redaction.Derivation

open Schema (Cardinality)

/-- A token of program text. -/
inductive Token where
  /-- A name, keyword or number. -/
  | word (text : String)
  /-- A punctuation mark. -/
  | mark (text : String)
  /-- A text between quotes. -/
  | text (value : String)
  /-- The name of a lifetime. -/
  | lifetime (name : String)
deriving DecidableEq, Repr

namespace Token

/-- The characters of a token. -/
def chars : Token → List Char
  | .word written => written.toList
  | .mark written => written.toList
  | .text value => Text.jsonQuoted value
  | .lifetime name => '\x27' :: name.toList

/-- Whether a character makes a word run on. Names may also hold other connecting punctuation and
marks that count neither as letters nor as numbers, and those do not. -/
def isWordChar (c : Char) : Bool := Text.isAlphanumeric c || c = '_'

/-- Whether a token needs a blank between itself and a text that ends with the character given. -/
def needsBlank (last : Option Char) : Token → Bool
  | .word written => last.any isWordChar && written.toList.head?.any isWordChar
  | .mark _ | .text _ | .lifetime _ => false

/-- The text of tokens behind a text that ends with the character given. -/
def write : Option Char → List Token → List Char
  | _, [] => []
  | last, token :: rest =>
    let written := token.chars
    (if token.needsBlank last then ' ' :: written else written)
      ++ write (written.getLast?.or last) rest

end Token

/-- Where the names of the library are found. -/
inductive LibraryPath where
  /-- In the program itself. -/
  | here
  /-- In a library of the name given. -/
  | external (name : String)
deriving DecidableEq, Repr

/-- The tokens of a path to the library. -/
def LibraryPath.tokens : LibraryPath → List Token
  | .here => [.word "crate"]
  | .external name => [.mark "::", .word name]

/-- Lists of tokens with a mark between each two. -/
def separated (separator : String) : List (List Token) → List Token
  | [] => []
  | [tokens] => tokens
  | tokens :: next :: rest => tokens ++ .mark separator :: separated separator (next :: rest)

mutual

/-- The tokens of a type. -/
def TypeExpr.tokens : TypeExpr → List Token
  | .path absolute segments =>
    (if absolute then [.mark "::"] else []) ++ separated "::" (segmentTokens segments)
  | .associated owner segments =>
    let written := segmentTokens segments
    let role := written.dropLast
    .mark "<" :: owner.tokens
      ++ (if role.isEmpty then [] else .word "as" :: separated "::" role)
      ++ .mark ">" :: .mark "::" :: written.getLast?.getD []
  | .reference lifetime target changeable =>
    .mark "&" :: (match lifetime with
      | some name => [.lifetime name]
      | none => []) ++ (if changeable then [.word "mut"] else []) ++ target.tokens
  | .tuple items =>
    match typeTokens items with
    | [single] => .mark "(" :: single ++ [.mark ",", .mark ")"]
    | several => .mark "(" :: separated "," several ++ [.mark ")"]
  | .array element length =>
    .mark "[" :: element.tokens ++ [.mark ";", .word length, .mark "]"]
  | .slice element => .mark "[" :: element.tokens ++ [.mark "]"]
  | .other written => [.word written]

/-- The tokens of one part of a path. Lifetimes are moved in front of the other arguments; each
argument that was not the last one keeps the comma behind it. -/
def Segment.tokens : Segment → List Token
  | .plain name => [.word name]
  | .generic name arguments =>
    let lifetimes := (arguments.filterMap Argument.lifetime?).map fun lifetime =>
      [Token.lifetime lifetime]
    let others := otherTokens arguments
    let comma := !others.isEmpty && (arguments.getLast?.bind Argument.lifetime?).isSome
    .word name :: .mark "<" :: separated "," (lifetimes ++ others)
      ++ (if comma then [.mark ","] else []) ++ [.mark ">"]
  | .function name written => [.word name, .word written]

/-- The tokens of each of several types. -/
def typeTokens : List TypeExpr → List (List Token)
  | [] => []
  | type :: rest => type.tokens :: typeTokens rest

/-- The tokens of each part of a path. -/
def segmentTokens : List Segment → List (List Token)
  | [] => []
  | segment :: rest => segment.tokens :: segmentTokens rest

/-- The tokens of each argument that is no lifetime. -/
def otherTokens : List Argument → List (List Token)
  | [] => []
  | .type value :: rest => value.tokens :: otherTokens rest
  | .constant written :: rest => [.word written] :: otherTokens rest
  | .lifetime _ :: rest => otherTokens rest

end

section

variable (library : LibraryPath)

/-- A name of the library. -/
def libraryName (name : String) : List Token := library.tokens ++ [.mark "::", .word name]

/-- Arguments of a call. -/
def callTokens (arguments : List (List Token)) : List Token :=
  .mark "(" :: separated "," arguments ++ [.mark ")"]

/-- A function of a type in one of its roles. -/
def roleFunction (type : TypeExpr) (role function : String) : List Token :=
  .mark "<" :: type.tokens ++ .word "as" :: libraryName library role
    ++ [.mark ">", .mark "::", .word function]

/-- A function of the description of fields. -/
def fieldFunction (function : String) : List Token :=
  libraryName library "FieldDescriptor" ++ [.mark "::", .word function]

/-- A call behind the value on which it acts. -/
def methodCall (method : String) (arguments : List (List Token)) : List Token :=
  .mark "." :: .word method :: callTokens arguments

/-- The tokens of the description of a field. -/
def FieldCall.tokens (call : FieldCall) : List Token :=
  let name := [Token.text call.name]
  let base := match call.kind with
    | .scalar => fieldFunction library "scalar" ++ callTokens [name]
    | .enumeration => fieldFunction library "enumeration" ++ callTokens [name]
    | .message type =>
      fieldFunction library "message"
        ++ callTokens [name, roleFunction library type "Message" "type_name" ++ callTokens []]
  let cardinality := match call.cardinality with
    | .singular => []
    | .repeated => methodCall "repeated" []
    | .map => methodCall "map" []
  base ++ cardinality ++ (if call.secret then methodCall "sensitive" [] else [])

/-- The tokens of a call that describes a part of a message type. -/
def BuilderCall.tokens : BuilderCall → List Token
  | .field call => methodCall "with_field" [call.tokens library]
  | .oneof group type secret =>
    let alternatives := roleFunction library type "Oneof" "alternatives" ++ callTokens []
    let marked :=
      if secret then
        alternatives ++ methodCall "into_iter" []
          ++ methodCall "map" [fieldFunction library "sensitive"]
      else alternatives
    methodCall "with_oneof" [[.text group], marked]

/-- The tokens of a registration. -/
def Registration.tokens : Registration → List Token
  | .message type =>
    roleFunction library type "Message" "register" ++ callTokens [[.word "registry"]]
      ++ [.mark ";"]
  | .alternatives type =>
    roleFunction library type "Oneof" "register_dependencies" ++ callTokens [[.word "registry"]]
      ++ [.mark ";"]

/-- The tokens of a function without parameters. -/
def functionTokens (name : String) (result body : List Token) : List Token :=
  [.word "fn", .word name, .mark "(", .mark ")", .mark "->"] ++ result
    ++ .mark "\x7b" :: body ++ [.mark "\x7d"]

/-- The tokens of the function that registers the types to which an implementation leads. -/
def registrationTokens (registrations : List Registration) : List Token :=
  [.mark "#", .mark "[", .word "allow", .mark "(", .word "unused_variables", .mark ")", .mark "]",
    .word "fn", .word "register_dependencies", .mark "(", .word "registry", .mark ":", .mark "&",
    .word "mut"] ++ libraryName library "SchemaBuilder" ++ [.mark ")", .mark "\x7b"]
    ++ registrations.flatMap (Registration.tokens library) ++ [.mark "\x7d"]

/-- The tokens of an implementation of one role by a type. -/
def implementationTokens (role ident : String) (body : List Token) : List Token :=
  .word "impl" :: libraryName library role ++ [.word "for", .word ident, .mark "\x7b"] ++ body
    ++ [.mark "\x7d"]

/-- The tokens of the implementation of a message type. -/
def MessageImpl.tokens (impl : MessageImpl) : List Token :=
  let name := [Token.text impl.typeName]
  implementationTokens library "Message" impl.ident
    (functionTokens "type_name" [.mark "&", .lifetime "static", .word "str"] name
      ++ functionTokens "descriptor" (libraryName library "MessageDescriptor")
        (libraryName library "MessageDescriptor" ++ [.mark "::", .word "new"] ++ callTokens [name]
          ++ impl.calls.flatMap (BuilderCall.tokens library))
      ++ registrationTokens library impl.registrations)

/-- The tokens of the implementation of a group. -/
def OneofImpl.tokens (impl : OneofImpl) : List Token :=
  let standard := [Token.mark "::", .word "std", .mark "::"]
  implementationTokens library "Oneof" impl.ident
    (functionTokens "alternatives"
        (standard ++ [.word "vec", .mark "::", .word "Vec", .mark "<"]
          ++ libraryName library "FieldDescriptor" ++ [.mark ">"])
        (standard ++ [.word "vec", .mark "!", .mark "["]
          ++ separated "," (impl.alternatives.map (FieldCall.tokens library)) ++ [.mark "]"])
      ++ registrationTokens library (impl.registrations.map .message))

end

/-- The program text of the implementation of a message type. -/
def MessageImpl.code (library : LibraryPath) (impl : MessageImpl) : String :=
  String.ofList (Token.write none (impl.tokens library))

/-- The program text of the implementation of a group. -/
def OneofImpl.code (library : LibraryPath) (impl : OneofImpl) : String :=
  String.ofList (Token.write none (impl.tokens library))

end Redaction.Derivation

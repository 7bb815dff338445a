import Redaction.Proofs.Walk.Placed
import Redaction.Sanitizer.Basic

/-!
# Where a record of a wrong shape points

A record about a value of the wrong shape names a message type and a field. Where a list or a map is
missing, these are a type and a field that it declares. Where one of the messages of a field is
missing, the field is the one that holds the messages, but the type is that of the messages and need
not declare it. In both cases the value is a part of the document.
-/

namespace Redaction

open Schema Redaction.Tree

namespace Schema.Registry

/-- How a message type and a field name a value at the end of a path that has the wrong shape. -/
inductive Locates (registry : Registry) (policy : Policy) (reference : String) :
    List Step → String → String → Expectation → Prop where
  /-- What has to hold the messages of a field is named after the field and the type that declares
  it. -/
  | frame {path : List Step} {parent type : Message} {field : Field} {expected : Expectation}
    (arrives : registry.Arrives policy (.root reference) path (.nested parent field type))
    (known : parent ∈ registry.messages) (declared : field ∈ parent.fields)
    (framed : field.cardinality.frame? = some expected) :
    Locates registry policy reference path parent.name field.name expected
  /-- What has to be one of the messages of a field is named after the field and the type of the
  messages. -/
  | message {path steps : List Step} {parent type : Message} {field : Field}
    (arrives : registry.Arrives policy (.root reference) path (.nested parent field type))
    (known : parent ∈ registry.messages) (declared : field ∈ parent.fields)
    (passes : registry.Passes policy (.nested parent field type) steps
      (.message type (some field))) :
    Locates registry policy reference (path ++ steps) type.name field.name .object
  /-- The whole document is named after its type and no field. -/
  | whole {type : Message} (known : registry.get? reference = some type) :
    Locates registry policy reference [] type.name "" .object

variable {registry : Registry} {policy : Policy} {reference : String} {path : List Step}

/-- The type of the whole message is the one that the reference means. -/
theorem Arrives.of_root {type : Message}
    (arrives : registry.Arrives policy (.root reference) path (.message type none)) :
    path = [] ∧ registry.get? reference = some type := by
  cases arrives with
  | step earlier passes =>
    cases passes with
    | root known =>
      cases earlier with
      | here => exact ⟨rfl, known⟩
      | step _ passes => cases passes

/-- What the schema arrives at locates the values there that have the wrong shape. -/
theorem Arrives.locates {last : Task} {value : Tree} {message field : String}
    {expected : Expectation} {found : Shape}
    (arrives : registry.Arrives policy (.root reference) path last)
    (misfit : registry.misfit? policy last value =
      some (.unexpectedShape message field expected found)) :
    registry.Locates policy reference path message field expected ∧ value.shape = found ∧
      value.fits expected = false := by
  cases last with
  | root other =>
    rw [misfit?] at misfit
    split at misfit <;> cases misfit
  | field parent field =>
    rw [misfit?] at misfit
    split at misfit <;> cases misfit
  | group parent group =>
    obtain ⟨_, _, wrong⟩ := Option.map_eq_some_iff.mp misfit
    cases wrong
  | nested parent field type =>
    obtain ⟨expected, framed, wrong⟩ := Option.bind_eq_some_iff.mp misfit
    obtain ⟨unfit, same⟩ := misshape?_eq_some_iff.mp wrong
    cases same
    obtain ⟨known, declared, _⟩ := arrives.declares trivial
    exact ⟨.frame arrives known declared framed, rfl, unfit⟩
  | message type owner =>
    obtain ⟨unfit, same⟩ := misshape?_eq_some_iff.mp misfit
    cases same
    refine ⟨?_, rfl, unfit⟩
    cases owner with
    | none =>
      obtain ⟨rfl, known⟩ := arrives.of_root
      exact .whole known
    | some field =>
      cases arrives with
      | step earlier passes =>
        have holds := passes
        cases passes with
        | single | item | entry =>
          obtain ⟨known, declared, _⟩ := earlier.declares trivial
          exact .message earlier known declared holds

end Schema.Registry

namespace Tree

/-- What redaction leaves without taking it out has the shape of the value before. -/
theorem Veiled.shape_eq {mayDrop : Prop} {before after : Tree}
    (veiled : Veiled mayDrop before after) (left : after ≠ .stripped) :
    before.shape = after.shape := by
  cases veiled with
  | stripped => exact absurd rfl left
  | null | leaf | list | object => rfl

/-- Whether a value has the shape that is needed is a matter of its shape. -/
theorem fits_eq_of_shape_eq {value other : Tree} (same : value.shape = other.shape)
    (expected : Expectation) : value.fits expected = other.fits expected := by
  cases value <;> cases other <;> cases same <;> cases expected <;> rfl

end Tree

namespace Config

/-- A record about a value of the wrong shape is about a part of the document which has the shape
that is reported and does not fit. A list or a map is named after the field and the type that
declares it. A message is named after the field that holds it and its own type, not the type that
declares the field; the whole document is named after its type and no field. -/
theorem shape_record_located {config : Config} {registry : Registry}
    {additional : AdditionalNames} {reference : String} {document : Json} {message field : String}
    {expected : Expectation} {found : Shape} {fallback : Fallback}
    (logged : .fellBack (.unexpectedShape message field expected found) fallback ∈
      (config.sanitizeDocument registry additional reference document).events) :
    ∃ path part, (Tree.ofJson document).Has path part ∧ part.shape = found ∧
      part.fits expected = false ∧
      registry.Locates ⟨config.secretSuffix, additional⟩ reference path message field expected := by
  obtain ⟨problem, reported, same⟩ := List.mem_map.mp logged
  cases same
  obtain ⟨path, last, value, arrives, ⟨part, has, veiled⟩, misfit⟩ :=
    Walker.placed_of_mem_problems reported
  obtain ⟨locates, rfl, unfit⟩ := Registry.Arrives.locates arrives misfit
  have left : value ≠ .stripped := by
    rintro rfl
    cases expected <;> cases unfit
  have shape := veiled.shape_eq left
  exact ⟨path, part, has, shape, (fits_eq_of_shape_eq shape expected).trans unfit, locates⟩

/-- A type with one message, a list, a map and a group of messages of another type. -/
def basket : Message :=
  .ofDeclarations "shop.Basket"
    [.field (.message "gift" "shop.Item"), .field (Field.message "items" "shop.Item").repeated,
      .field (Field.message "stock" "shop.Item").map,
      .oneof "extra" [.message "voucher" "shop.Item"]]

/-- A type that declares none of the fields with its messages. -/
def item : Message := .ofDeclarations "shop.Item" [.field (.scalar "label")]

/-- A text in the place of a list of messages is reported as that of the field of its type. -/
theorem basket_items_located :
    .fellBack (.unexpectedShape "shop.Basket" "items" .list .string) .strip ∈
      (sanitizeDocument {} (.ofList [basket, item]) .empty ".shop.Basket"
        (.object [("items", .string "tea")])).events ∧
    ∃ path part, (Tree.ofJson (.object [("items", .string "tea")])).Has path part ∧
      part.shape = .string ∧ part.fits .list = false ∧
      (Registry.ofList [basket, item]).Locates ⟨none, .empty⟩ ".shop.Basket" path "shop.Basket"
        "items" .list := by
  have logged : .fellBack (.unexpectedShape "shop.Basket" "items" .list .string) .strip ∈
      (sanitizeDocument {} (.ofList [basket, item]) .empty ".shop.Basket"
        (.object [("items", .string "tea")])).events := by decide
  exact ⟨logged, shape_record_located logged⟩

/-- Texts in the place of messages are reported as those of fields that the type named does not
declare: for a single message, one in a list, one in a map and one in a group. -/
theorem item_records_misplaced :
    let registry := Registry.ofList [basket, item]
    let document := Json.object [("extra", .object [("voucher", .string "v")]),
      ("gift", .string "g"), ("items", .array [.string "i"]),
      ("stock", .object [("tea", .string "s")])]
    let fields := ["gift", "items", "stock", "voucher"]
    (sanitizeDocument {} registry .empty "shop.Basket" document).events =
        (fields.map fun field =>
          .fellBack (.unexpectedShape "shop.Item" field .object .string) .strip) ∧
      ∀ type ∈ registry.messages, type.name = "shop.Item" →
        ∀ field ∈ type.fields, field.name ∉ fields := by
  decide

end Config

end Redaction

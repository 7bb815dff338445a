import Redaction.Proofs.Serial.Canonical
import Redaction.Proofs.Tree.Rendered
import Redaction.Proofs.Walk.OnlyRedacts
import Redaction.Sanitizer.Wrapped

/-!
# The text and the document of a sanitized message

A message that is sanitized in JSON style can be had as a text and as a document. The text is the
compact writing of the document, and reading it gives the document back.
-/

namespace Redaction

open Redaction.Tree

/-- The rendering of a tree is the text of its document. -/
theorem render_json_eq_text (tree : Tree) (marker : String) :
    tree.render .json marker = (tree.toJson marker).text :=
  congrArg String.ofList (jsonChars_eq_chars tree)

/-- The rendering of a tree is read as its document. -/
theorem read_render_json {tree : Tree} (canonical : tree.Canonical) (legible : tree.Legible)
    (marker : String) : Json.read (tree.render .json marker) = .ok (tree.toJson marker) := by
  rw [render_json_eq_text]
  exact Json.read_text (canonical_toJson tree canonical) (legible_toJson tree legible)

section Wrapped

variable {wrapped : Wrapped} {tree : Tree}

/-- The redacted tree of a message. -/
def Wrapped.redacted (wrapped : Wrapped) (tree : Tree) : Tree :=
  (wrapped.config.redactTree wrapped.message.registry wrapped.additional wrapped.message.typeName
    tree).result

/-- The redacted tree comes about by steps of redaction. -/
theorem Wrapped.redacted_spec (wrapped : Wrapped) (tree : Tree) :
    Redacted (wrapped.config.unknownFields = .drop) tree (wrapped.redacted tree) :=
  Walker.redacted_walkRoot
    (.ofConfig wrapped.message.registry wrapped.config wrapped.additional) _ tree

/-- A message that has a tree is printed as the rendering of the redacted tree. -/
theorem Wrapped.text_result (serializes : wrapped.message.data.toTree = .ok tree) :
    wrapped.text.result =
      (wrapped.redacted tree).render wrapped.config.style wrapped.config.marker := by
  simp only [Wrapped.text, Config.sanitize, Config.redact, serializes]
  rfl

/-- A message that has a tree has the document of the redacted tree. -/
theorem Wrapped.json_result (serializes : wrapped.message.data.toTree = .ok tree) :
    wrapped.json.result = (wrapped.redacted tree).toJson wrapped.config.marker := by
  simp only [Wrapped.json, Config.sanitizeToJson, Config.redact, serializes]
  rfl

end Wrapped

/-- Rendered as JSON, a tree is the compact text of its document, whose keys ascend, and the text is
read as the document. So the printed form of a message in JSON style is read as the document of the
message. Keys have to ascend in what is rendered, and floats to be read back from their texts. -/
theorem json_text_and_document_agree :
    (∀ (tree : Tree) (marker : String),
      tree.render .json marker = (tree.toJson marker).text ∧
        (tree.Canonical → (tree.toJson marker).Canonical) ∧
        (tree.Canonical → tree.Legible →
          Json.read (tree.render .json marker) = .ok (tree.toJson marker))) ∧
    ∀ (wrapped : Wrapped) (tree : Tree), wrapped.config.style = .json →
      wrapped.message.data.Canonical → wrapped.message.data.toTree = .ok tree → tree.Legible →
        wrapped.text.result = wrapped.json.result.text ∧
          Json.read wrapped.text.result = .ok wrapped.json.result := by
  refine ⟨fun tree marker => ⟨render_json_eq_text tree marker, canonical_toJson tree,
    fun canonical legible => read_render_json canonical legible marker⟩, ?_⟩
  intro wrapped tree json canonical serializes legible
  have redacted := wrapped.redacted_spec tree
  have ordered : (wrapped.redacted tree).Canonical :=
    redacted.canonical (Serial.Data.canonical_toTree canonical serializes)
  rw [Wrapped.text_result serializes, Wrapped.json_result serializes, json]
  exact ⟨render_json_eq_text _ _, read_render_json ordered (redacted.legible legible) _⟩

namespace Bill

open Schema (Field Message Registry)
open Serial (Data)

/-- A bill has a secret number and a list of sums. -/
def bill : Message :=
  .ofDeclarations "shop.Bill"
    [.field (.secret (.scalar "pin")), .field (.repeated (.scalar "sums"))]

/-- The float `1.5`. -/
def oneAndAHalf : Number.Binary Number.binary64 := ⟨false, 6755399441055744, -52, by decide⟩

/-- The float is read back from its text. -/
theorem read_oneAndAHalf :
    Number.read (Number.float oneAndAHalf).text = .ok (.float oneAndAHalf, []) := by
  decide +kernel

/-- The content of a bill, with keys out of order, an absent value and a character to escape. -/
def content : Data :=
  .record [("sums", .sequence [.double (.finite oneAndAHalf), .nothing, .character '\t']),
    ("note", .nothing), ("pin", .integer 4711)]

/-- The tree of the content. -/
def tree : Tree :=
  .object [("pin", .number (.integer ⟨4711, by decide, by decide⟩)),
    ("sums", .list [.number (.float oneAndAHalf), .null, .string "\t"])]

/-- The floats of the tree are read back. -/
theorem legible_tree : tree.Legible := by
  have sum : (Tree.number (.float oneAndAHalf)).Legible := legible_float read_oneAndAHalf
  have absent : Tree.null.Legible := legible_of_flat nofun nofun fun _ => nofun
  have tab : (Tree.string "\t").Legible := legible_of_flat nofun nofun fun _ => nofun
  have pin : (Tree.number (.integer ⟨4711, by decide, by decide⟩)).Legible :=
    legible_of_flat nofun nofun fun _ => nofun
  simp only [tree, legible_object_iff, legible_list_iff, List.forall_mem_cons, List.not_mem_nil,
    false_implies, implies_true, and_true]
  exact ⟨pin, sum, absent, tab⟩

/-- A tree with a value that was taken out, a member that is null and characters to escape. -/
def remains : Tree := .object [("", .stripped), ("\"a\\\n", .null), ("b", .list [.null, .stripped])]

/-- Nothing in the tree is a float. -/
theorem legible_remains : remains.Legible := by
  have absent : Tree.null.Legible := legible_of_flat nofun nofun fun _ => nofun
  have removed : Tree.stripped.Legible := legible_of_flat nofun nofun fun _ => nofun
  simp only [remains, legible_object_iff, legible_list_iff, List.forall_mem_cons, List.not_mem_nil,
    false_implies, implies_true, and_true]
  exact ⟨removed, absent, absent, removed⟩

/-- The remains and a printed bill are read back as their documents. -/
theorem bill_text_and_document_agree :
    let wrapped : Wrapped := Config.strip {} ⟨"shop.Bill", .ofList [bill], content⟩
    Json.read (remains.render .json "\"?\"") = .ok (remains.toJson "\"?\"") ∧
      wrapped.text.result =
        "\x7b\"pin\":\"***stripped***\",\"sums\":[1.5,null,\"\\t\"]\x7d" ∧
      Json.read wrapped.text.result = .ok wrapped.json.result := by
  intro wrapped
  have general := json_text_and_document_agree
  have canonical : content.Canonical := ⟨⟨True.intro, True.intro, True.intro, True.intro⟩,
    True.intro, True.intro, True.intro⟩
  have serializes : content.toTree = .ok tree := by decide +kernel
  have ordered : remains.Canonical :=
    ⟨by unfold Members.Ordered; decide, True.intro, True.intro,
      ⟨True.intro, True.intro, True.intro⟩, True.intro⟩
  have printed := general.2 wrapped tree rfl canonical serializes legible_tree
  refine ⟨(general.1 remains "\"?\"").2.2 ordered legible_remains, ?_, printed.2⟩
  decide +kernel

end Bill

end Redaction

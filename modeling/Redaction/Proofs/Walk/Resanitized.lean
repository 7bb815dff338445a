import Redaction.Proofs.Tree.Marked
import Redaction.Proofs.Walk.Repeated
import Redaction.Sanitizer.Basic

/-!
# Sanitizing a sanitized document

When a redacted tree is stored as a document and read again, the marker stands as a text in the
place of each value that has been taken out. A second walk may treat such a text as a value that
does not fit, but its result is stored as the same document. So redacting a redacted document
changes nothing.
-/

namespace Redaction

open Schema Redaction.Tree

/-- The marker inside a tree makes no difference to whether the tree has the form that a place
needs. -/
theorem Schema.Place.accepts_marked {marker : String} (place : Place) (tree : Tree) :
    place.accepts (tree.marked marker) = place.accepts tree := by
  rcases tree with _ | _ | _ | _ | _ | (_ | ⟨_, _ | _⟩) | _ <;> cases place <;> rfl

/-- Nor does it to whether the tree stands under an undeclared name. -/
theorem Schema.Place.stray_marked {marker : String} (place : Place) (tree : Tree) :
    place.stray (tree.marked marker) = place.stray tree := by
  rcases tree with _ | _ | _ | _ | _ | (_ | ⟨_, _ | _⟩) | _ <;> cases place <;> rfl

/-- Nor does it to whether the tree is vacant, if the tree itself has not been taken out. -/
theorem Tree.isVacant_marked {marker : String} {tree : Tree} (present : tree ≠ .stripped) :
    (tree.marked marker).isVacant = tree.isVacant := by
  cases tree with
  | stripped => exact absurd rfl present
  | _ => rfl

namespace Walker

variable {walker : Walker} {place : Place} {tree : Tree} {marker : String}

/-- Markers inside a tree make no difference to what is done with it. -/
theorem verdict_marked (present : tree ≠ .stripped) :
    walker.verdict place (tree.marked marker) = walker.verdict place tree := by
  by_cases framed : place.framed = true
  · rw [verdict_of_framed framed, verdict_of_framed framed, loses, loses, place.accepts_marked,
      place.stray_marked, isVacant_marked present]
  · cases place with
    | secret | free | missing | unknown => rfl
    | _ => exact absurd rfl framed

/-- If the marker makes no difference to what becomes of a value, it makes none to what is kept. -/
theorem kept_marked
    (same : (walker.outcome place (tree.marked marker)).marked marker =
      (walker.outcome place tree).marked marker) :
    (walker.kept place (tree.marked marker)).map (marked marker) =
      (walker.kept place tree).map (marked marker) := by
  have drops : walker.verdict place (tree.marked marker) = .drop ↔
      walker.verdict place tree = .drop := by
    rw [verdict_eq_drop_iff, verdict_eq_drop_iff, loses, loses, place.stray_marked]
  unfold kept
  by_cases gone : walker.verdict place tree = .drop
  · rw [if_pos gone, if_pos (drops.mpr gone)]
  · rw [if_neg gone, if_neg (gone ∘ drops.mp), Option.map_some, Option.map_some, same]

/-- The marker makes no difference to the document of what becomes of a tree. -/
theorem outcome_marked (place : Place) (tree : Tree) :
    (walker.outcome place (tree.marked marker)).marked marker =
      (walker.outcome place tree).marked marker := by
  induction tree using inductionHeld generalizing place with
  | step tree ih =>
    by_cases gone : tree = .stripped
    · subst gone
      rw [outcome_stripped, outcome_eq]
      cases walker.verdict place (marked marker .stripped) <;> rfl
    · have same : walker.verdict place (tree.marked marker) = walker.verdict place tree :=
        verdict_marked gone
      cases verdict : walker.verdict place tree with
      | drop | strip =>
        rw [outcome_of_verdict verdict, outcome_of_verdict (same.trans verdict)]
        rfl
      | keep =>
        rw [outcome_of_verdict verdict, outcome_of_verdict (same.trans verdict)]
        exact marked_marked tree
      | enter =>
        rw [outcome_of_verdict verdict, outcome_of_verdict (same.trans verdict), Verdict.apply,
          Verdict.apply, outcomeInside, outcomeInside, marked_eq_inside gone, inside_inside,
          marked_inside gone, marked_inside gone]
        refine inside_congr (fun part held => ih part held place.item) fun key part held => ?_
        exact kept_marked (ih part held (walker.under place key))

/-- A walk turns nothing into null. -/
theorem outcome_ne_null (occupied : tree ≠ .null) : walker.outcome place tree ≠ .null := by
  rw [outcome_eq]
  cases walker.verdict place tree with
  | drop | strip => exact nofun
  | keep => exact occupied
  | enter =>
    cases tree with
    | null => exact absurd rfl occupied
    | _ => exact nofun

/-- A walk brings in no keys with the value null. -/
theorem nullFree_outcome (free : NullFree tree) : NullFree (walker.outcome place tree) := by
  induction tree using inductionHeld generalizing place with
  | step tree ih =>
    rw [outcome_eq]
    cases walker.verdict place tree with
    | drop | strip => exact .intro nofun nofun
    | keep => exact free
    | enter =>
      refine free.inside (fun part held => ih part held (free.of_holds held)) ?_
      intro key part remaining held occupied kept
      rw [← (kept_eq_some_iff.mp kept).2]
      exact ⟨outcome_ne_null occupied, ih part held (free.of_holds held)⟩

end Walker

/-- The document of the tree that `Config.sanitizeDocument` renders. -/
def Config.redactDocument (config : Config) (registry : Registry) (additional : AdditionalNames)
    (reference : String) (document : Json) : Json :=
  (config.redactTree registry additional reference (.ofJson document)).result.toJson config.marker

/-- Redacting a redacted document changes nothing: where a value was taken out, whatever it was, the
second walk leads from the marker back to the marker. -/
theorem Config.redactDocument_redactDocument (registry : Registry) (apart : registry.KeysApart)
    (config : Config) (additional : AdditionalNames) (reference : String) (document : Json) :
    config.redactDocument registry additional reference
        (config.redactDocument registry additional reference document) =
      config.redactDocument registry additional reference document := by
  let walker := Walker.ofConfig registry config additional
  let place := registry.placeOfRoot reference
  have described : ∀ document, config.redactDocument registry additional reference document =
      (walker.outcome place (.ofJson document)).toJson config.marker := fun document =>
    congrArg (toJson config.marker) (Walker.value_walkRoot_eq_outcome apart reference _)
  let redacted := walker.outcome place (.ofJson document)
  have free : NullFree redacted := Walker.nullFree_outcome (nullFree_ofJson document)
  have again : walker.outcome place redacted = redacted :=
    Walker.outcome_ofConfig_idem registry config additional place (.ofJson document)
  rw [described document, described]
  calc (walker.outcome place (.ofJson (redacted.toJson config.marker))).toJson config.marker
      = (walker.outcome place (redacted.marked config.marker)).toJson config.marker := by
        rw [ofJson_toJson free]
    _ = ((walker.outcome place (redacted.marked config.marker)).marked config.marker).toJson
          config.marker := (toJson_marked _).symm
    _ = ((walker.outcome place redacted).marked config.marker).toJson config.marker := by
        rw [Walker.outcome_marked]
    _ = redacted.toJson config.marker := by rw [again, toJson_marked]

/-- A ticket whose seats and card do not fit has the same document after it is redacted again. -/
theorem Config.redactDocument_ticket :
    let registry : Registry := .ofList [Walker.ticket, Walker.seat]
    let config : Config := { marker := "#", unknownFields := .strip }
    let document : Json := .object [("guest", .null), ("note", .string "n"),
      ("payment", .object [("card", .object [("pin", .string "p")])]),
      ("seats", .array [.object [("code", .array []), ("row", .string "r")], .bool true, .null])]
    let redacted : Json := .object [("note", .string "#"), ("payment", .object [("card", .string "#")]),
      ("seats", .array [.object [("code", .string "#"), ("row", .string "r")], .string "#", .null])]
    registry.KeysApart ∧
      config.redactDocument registry .empty "show.Ticket" document = redacted ∧
      config.redactDocument registry .empty "show.Ticket" redacted = redacted := by
  intro registry config document redacted
  have apart : registry.KeysApart := by decide
  have once : config.redactDocument registry .empty "show.Ticket" document = redacted := by decide
  refine ⟨apart, once, ?_⟩
  have twice := redactDocument_redactDocument registry apart config .empty "show.Ticket" document
  rwa [once] at twice

end Redaction

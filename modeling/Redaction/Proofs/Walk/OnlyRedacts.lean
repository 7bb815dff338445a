import Redaction.Proofs.Tree.Veiled
import Redaction.Proofs.Walk.Depth

/-!
# A walk only redacts

Whatever the message types are like, a walk takes values out and does nothing else: no key, item or
value is added, moved, renamed or altered, and no key is lost unless unknown data is removed.
-/

namespace Redaction

open Schema Redaction.Tree

namespace Walker

/-- A walk of a tree consists of steps of redaction. -/
theorem redacted_walkRoot (walker : Walker) (reference : String) (tree : Tree) :
    Redacted (walker.unknownFields = .drop) tree (walker.walkRoot reference tree).value := by
  unfold walkRoot
  cases walker.registry.get? reference with
  | none => exact redacted_fallBack _ tree
  | some message =>
    dsimp only
    split
    · exact .refl tree
    · exact redacted_walkMessage message none tree

/-- The tree that a walk leaves is a veiled form of the tree before, in which keys are missing only
if unknown data is removed. -/
theorem veiled_walkRoot (registry : Registry) (config : Config) (additional : AdditionalNames)
    (reference : String) (tree : Tree) :
    Veiled (config.unknownFields = .drop) tree
      ((ofConfig registry config additional).walkRoot reference tree).value :=
  (redacted_walkRoot (ofConfig registry config additional) reference tree).veiled

end Walker

end Redaction

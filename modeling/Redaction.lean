import Redaction.Catalogue.Entry
import Redaction.Config.Reader
import Redaction.Sanitizer.Wrapped
import Redaction.Derivation.Code
import Redaction.Proofs.Rewriting
import Redaction.Proofs.Tree.Path
import Redaction.Proofs.Tree.Redacted
import Redaction.Proofs.Walk.Fate
import Redaction.Proofs.Walk.Depth
import Redaction.Proofs.Walk.Permitted
import Redaction.Proofs.Schema.Reachable
import Redaction.Proofs.Walk.Pruning
import Redaction.Proofs.Walk.Pointwise
import Redaction.Proofs.Schema.Reordered
import Redaction.Proofs.Walk.Order
import Redaction.Proofs.Walk.Alike
import Redaction.Proofs.Walk.Secrets
import Redaction.Proofs.Schema.Conforming
import Redaction.Proofs.Walk.Conforming
import Redaction.Proofs.Walk.Outcome
import Redaction.Proofs.Schema.Tightened
import Redaction.Proofs.Walk.Stricter
import Redaction.Proofs.Walk.Repeated
import Redaction.Proofs.Tree.Marked
import Redaction.Proofs.Walk.Resanitized
import Redaction.Proofs.Tree.Veiled
import Redaction.Proofs.Walk.OnlyRedacts
import Redaction.Proofs.Tree.Part
import Redaction.Proofs.Walk.Claimants
import Redaction.Proofs.Schema.Naming
import Redaction.Proofs.Schema.Task
import Redaction.Proofs.Walk.Declared
import Redaction.Proofs.Walk.Misfit
import Redaction.Proofs.Walk.Blind
import Redaction.Proofs.Walk.Fallbacks
import Redaction.Proofs.Derivation.SecretFields
import Redaction.Proofs.Derivation.Closure
import Redaction.Proofs.Sanitizer.Reread
import Redaction.Proofs.Derivation.Complete
import Redaction.Proofs.Derivation.Builder
import Redaction.Proofs.Derivation.Serialized
import Redaction.Proofs.Schema.Searched
import Redaction.Proofs.Config.Accepted
import Redaction.Proofs.Derivation.Chosen
import Redaction.Proofs.Tree.Compact
import Redaction.Proofs.Tree.SingleLine
import Redaction.Proofs.Walk.Located
import Redaction.Proofs.Walk.Respelled
import Redaction.Proofs.Derivation.OptionSet
import Redaction.Proofs.Schema.Partition
import Redaction.Proofs.Policy.NameSet
import Redaction.Proofs.Sanitizer.Built
import Redaction.Proofs.Derivation.Transparent
import Redaction.Proofs.Derivation.Requalified
import Redaction.Proofs.Derivation.Retyped
import Redaction.Proofs.Derivation.SerialNames

import Eligibility.Text.Pieces
import Eligibility.Store.Memory
import Eligibility.Store.Bounded
import Eligibility.Service.Call
import Eligibility.Tree.Display
import Eligibility.Codec.Attributes
import Eligibility.Codec.Tree
import Eligibility.Codec.StoredRule
import Eligibility.Proofs.Rule.Outline
import Eligibility.Proofs.Condition.Agreement
import Eligibility.Proofs.Rule.Operand
import Eligibility.Proofs.Rule.Join
import Eligibility.Proofs.Rule.Spine
import Eligibility.Proofs.Rule.Majority
import Eligibility.Proofs.Service.Decision
import Eligibility.Proofs.Rule.Shape
import Eligibility.Proofs.Rule.Flat
import Eligibility.Proofs.Tree.Monotone
import Eligibility.Proofs.Condition.Derivation
import Eligibility.Proofs.Rule.Display
import Eligibility.Proofs.Rule.Image
import Eligibility.Proofs.Tree.Locality
import Eligibility.Proofs.Tree.Visit
import Eligibility.Proofs.Store.Memory
import Eligibility.Proofs.Service.Stored
import Eligibility.Proofs.Service.Relay
import Eligibility.Proofs.Rule.Verdict
import Eligibility.Proofs.Codec.Tree
import Eligibility.Proofs.Codec.RoundTrip
import Eligibility.Proofs.Rule.Tail
import Eligibility.Proofs.Rule.Conjunction
import Eligibility.Proofs.Rule.FirstDecision
import Eligibility.Proofs.Condition.Threshold
import Eligibility.Proofs.Tree.Silence
import Eligibility.Proofs.Rule.Rejection
import Eligibility.Proofs.Rule.Size
import Eligibility.Proofs.Tree.Raise
import Eligibility.Proofs.Service.Trail
import Eligibility.Proofs.Attributes.Writes
import Eligibility.Proofs.Text.Pieces

import Eligibility.Attributes
import Eligibility.Logged
import Eligibility.Order
import Eligibility.Text.Cut
import Eligibility.Word

namespace Eligibility

/-- What evaluation takes a condition's text for, whether or not it is a well-formed condition: a
number compared with a threshold, or a text that has to be the expected one. -/
inductive Comparison where
  | order (o : Order) (name threshold : Text)
  | equality (name expected : Text)
  | unreadable (condition : Text)
  deriving DecidableEq

namespace Comparison

/-- An equals sign right behind the comparison makes it inclusive. -/
def ofThreshold (strict inclusive : Order) (name : Text) : Text → Comparison
  | '=' :: threshold => order inclusive name.trim threshold
  | threshold => order strict name.trim threshold

/-- The first `>` decides; where there is none, the first `<`; where there is neither, the first
`=`. Quotes on the right of an equality do not count. -/
def ofText (t : Text) : Comparison :=
  match t.cut? ['>'] with
  | some (name, threshold) => ofThreshold .above .atLeast name threshold
  | none =>
    match t.cut? ['<'] with
    | some (name, threshold) => ofThreshold .below .atMost name threshold
    | none =>
      match t.cut? ['='] with
      | some (name, expected) => equality name.trim (expected.trim.filter (· ≠ '\''))
      | none => unreadable t

def name? : Comparison → Option Text
  | order _ name _ => some name
  | equality name _ => some name
  | unreadable _ => none

/-- A threshold is a 64-bit integer, or none at all. -/
def threshold? (t : Text) : Option Int64 := (Text.integer? t.trim).bind signed64?

/-- Whether the comparison holds. The threshold is read before the attribute is looked up. -/
def checkM (a : Attributes) : Comparison → Logged Bool
  | order o name threshold =>
    match threshold? threshold with
    | none => .refuse (.thresholdNotInteger name threshold)
    | some n =>
      match a.get? name with
      | some (.int v) => pure (o.holds v.toInt n.toInt)
      | some (.text _) => .refuse (.orderOnText name)
      | none => .refuse (.missingAttribute name)
  | equality name expected =>
    match a.get? name with
    | some (.text t) => pure (t == expected)
    | some (.int _) => .refuse (.equalityOnInteger name)
    | none => .refuse (.missingAttribute name)
  | unreadable condition => .refuse (.noComparator condition)

end Comparison

/-- Whether a condition holds of the attributes, with the reason reported if it cannot. -/
def evaluateConditionM (condition : Text) (a : Attributes) : Logged Bool :=
  (Comparison.ofText condition).checkM a

def evaluateCondition (condition : Text) (a : Attributes) : Bool :=
  (evaluateConditionM condition a).answer

end Eligibility

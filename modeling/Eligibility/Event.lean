import Eligibility.Connective
import Eligibility.Text.Decimal

namespace Eligibility

inductive Span where
  | createRule (name : Text)
  | combineRules
  | combineStored
  | evaluateRule
  deriving DecidableEq

/-- What reading, combining, evaluating and storing rules report while they run. -/
inductive Event where
  | opened (span : Span)
  | rejectedRule (rule : Text)
  | combiningRules (rules andCount orCount : Nat) (connective : Connective)
  | unrecognizedConnective (symbol : Text)
  | thresholdNotInteger (name threshold : Text)
  | orderOnText (name : Text)
  | equalityOnInteger (name : Text)
  | missingAttribute (name : Text)
  | noComparator (condition : Text)
  | ruleStored (id : UInt64)
  | ruleEvaluated (result : Bool)
  deriving DecidableEq

/-- How much detail a log must ask for to hold an event. -/
inductive Level where
  | trace
  | debug
  | info
  deriving DecidableEq

namespace Level

def name : Level → String
  | trace => "TRACE"
  | debug => "DEBUG"
  | info => "INFO"

end Level

namespace Span

def name : Span → String
  | createRule _ => "create_rule"
  | combineRules => "combine_rules"
  | combineStored => "combine_stored"
  | evaluateRule => "evaluate_rule"

def fields : Span → List (String × Text)
  | createRule name => [("name", name)]
  | _ => []

end Span

namespace Event

def span? : Event → Option Span
  | opened s => some s
  | _ => none

def title : Event → String
  | opened s => s.name
  | rejectedRule _ => "rejected rule text"
  | combiningRules .. => "combining rules"
  | unrecognizedConnective _ => "unrecognized connective evaluates to false"
  | thresholdNotInteger .. => "threshold is not an integer"
  | orderOnText _ => "numeric comparison on text attribute evaluates to false"
  | equalityOnInteger _ => "equality on integer attribute evaluates to false"
  | missingAttribute _ => "missing attribute evaluates to false"
  | noComparator _ => "condition has no comparator"
  | ruleStored _ => "rule stored"
  | ruleEvaluated _ => "rule evaluated"

/-- Spans are information, what a caller may act on is for debugging, and the reasons for which a
condition fails are traced. -/
def level : Event → Level
  | opened _ => .info
  | rejectedRule _ | combiningRules .. | ruleStored _ | ruleEvaluated _ => .debug
  | _ => .trace

def fields : Event → List (String × Text)
  | opened s => s.fields
  | rejectedRule rule => [("rule", rule)]
  | combiningRules rules andCount orCount connective =>
    [("rules", Text.ofNat rules), ("and_count", Text.ofNat andCount),
      ("or_count", Text.ofNat orCount), ("connective", connective.symbol)]
  | unrecognizedConnective symbol => [("connective", symbol)]
  | thresholdNotInteger name threshold =>
    [("attribute", name), ("threshold", threshold)]
  | orderOnText name => [("attribute", name)]
  | equalityOnInteger name => [("attribute", name)]
  | missingAttribute name => [("attribute", name)]
  | noComparator condition => [("condition", condition)]
  | ruleStored id => [("id", Text.ofNat id.toNat)]
  | ruleEvaluated result =>
    [("result", if result then ['t', 'r', 'u', 'e'] else ['f', 'a', 'l', 's', 'e'])]

end Event

end Eligibility

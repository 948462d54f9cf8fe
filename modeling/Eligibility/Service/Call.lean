import Eligibility.Error

namespace Eligibility.Service

/-- What a service can be asked for, and what can be asked of its store behind its back. -/
inductive Call where
  | createRule (name text : Text)
  | listRules
  | combineRules (texts : List Text)
  | combineStored
  | evaluateRule (text : Option Text) (attributes : Option Attributes)
  | direct (call : Store.Call)
  deriving DecidableEq

inductive Answer where
  | rule (r : StoredRule)
  | rules (rs : List StoredRule)
  | tree (t : Tree)
  | decision (result : Bool)
  deriving DecidableEq

namespace Answer

def ofStore : Store.Answer → Answer
  | .rule r => rule r
  | .rules rs => rules rs

end Answer

variable {σ α : Type} [RuleStore σ]

def settle (wrap : α → Answer) (x : ServiceM σ α) (s : σ) :
    Logged (Except Error Answer × σ) := do
  let (outcome, s') ← x.run.run s
  return ((outcome.mapError .service).map wrap, s')

/-- The outcome of a call, and the store after it. A direct call reports nothing. -/
def perform : Call → σ → Logged (Except Error Answer × σ)
  | .createRule name text => settle .rule (createRule name text)
  | .listRules => settle .rules listRules
  | .combineRules texts => settle .tree (combineRules texts)
  | .combineStored => settle .tree combineStored
  | .evaluateRule text attributes => settle .decision (evaluateRule text attributes)
  | .direct call => fun s =>
    let (outcome, s') := Store.perform call s
    return ((outcome.mapError .store).map .ofStore, s')

def run : List Call → σ → Logged (List (Except Error Answer) × σ)
  | [], s => return ([], s)
  | c :: cs, s => do
    let (outcome, s') ← perform c s
    let (outcomes, s'') ← run cs s'
    return (outcome :: outcomes, s'')

end Eligibility.Service

import Eligibility.Rule.Combine
import Eligibility.Store.Basic
import Eligibility.Tree.Evaluate

namespace Eligibility

inductive ServiceError where
  | missingInput (input : String)
  | parse (e : ParseError)
  | combine (e : CombineError)
  | store (e : StoreError)
  deriving DecidableEq

namespace ServiceError

def message : ServiceError → String
  | missingInput input => "missing required input '" ++ input ++ "'"
  | parse e => e.message
  | combine e => e.message
  | store e => e.message

end ServiceError

/-- A request over a store, which may report events and may fail. A failure keeps the store as the
request left it. -/
abbrev ServiceM (σ : Type) := ExceptT ServiceError (StateT σ Logged)

namespace Service

variable {σ α : Type}

def askStore (ask : σ → Except StoreError α × σ) : ServiceM σ α :=
  ExceptT.mk fun s => return ((ask s).1.mapError .store, (ask s).2)

/-- Does what needs no store, and says what its failure is here. -/
def compute {ε : Type} (wrap : ε → ServiceError) (x : ExceptT ε Logged α) : ServiceM σ α :=
  ExceptT.mk fun s => return ((← x.run).mapError wrap, s)

def require (input : String) : Option α → ServiceM σ α
  | some a => return a
  | none => throw (.missingInput input)

/-- Keeps a rule in the store. Its text is not read. -/
def createRule [RuleStore σ] (name text : Text) : ServiceM σ StoredRule := do
  Logged.emit (.opened (.createRule name))
  let rule ← askStore (RuleStore.create name text)
  Logged.emit (.ruleStored rule.id)
  return rule

def listRules [RuleStore σ] : ServiceM σ (List StoredRule) := askStore RuleStore.listAll

def combineRules (texts : List Text) : ServiceM σ Tree := do
  Logged.emit (.opened .combineRules)
  compute .combine (Rule.combineM texts)

def combineStored [RuleStore σ] : ServiceM σ Tree := do
  Logged.emit (.opened .combineStored)
  let rules ← askStore RuleStore.listAll
  compute .combine (Rule.combineM (rules.map (·.text)))

/-- Whether a rule holds of the attributes. Both are required, and the rule is looked at first. -/
def evaluateRule (text : Option Text) (attributes : Option Attributes) : ServiceM σ Bool := do
  Logged.emit (.opened .evaluateRule)
  let text ← require "rule_text" text
  let a ← require "attributes" attributes
  let tree ← compute .parse (Rule.parseM text)
  let result ← tree.evaluateM a
  Logged.emit (.ruleEvaluated result)
  return result

end Service

end Eligibility

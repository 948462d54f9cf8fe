import Eligibility.Text.Basic

namespace Eligibility

/-- A rule under a name, its text as it was written and not yet read. -/
structure StoredRule where
  id : UInt64
  name : Text
  text : Text
  deriving DecidableEq

inductive StoreError where
  | missingField (field : String)
  | backend (reason : String)
  deriving DecidableEq

namespace StoreError

def message : StoreError → String
  | missingField field => "missing required field '" ++ field ++ "'"
  | backend reason => "rule store failure: " ++ reason

end StoreError

/-- A place where rules are kept. The host decides what an answer is and what becomes of the store,
also where it fails. -/
class RuleStore (σ : Type) where
  /-- Keeps a rule, and gives it back with the id it has got. -/
  create (name text : Text) : σ → Except StoreError StoredRule × σ
  /-- All the rules that are kept. -/
  listAll : σ → Except StoreError (List StoredRule) × σ

namespace Store

inductive Call where
  | create (name text : Text)
  | listAll
  deriving DecidableEq

inductive Answer where
  | rule (r : StoredRule)
  | rules (rs : List StoredRule)
  deriving DecidableEq

variable {σ : Type} [RuleStore σ]

def perform : Call → σ → Except StoreError Answer × σ
  | .create name text, s => (RuleStore.create name text s).map (·.map .rule) id
  | .listAll, s => (RuleStore.listAll s).map (·.map .rules) id

def run : List Call → σ → List (Except StoreError Answer) × σ
  | [], s => ([], s)
  | c :: cs, s =>
    let (answer, s') := perform c s
    let (answers, s'') := run cs s'
    (answer :: answers, s'')

end Store

end Eligibility

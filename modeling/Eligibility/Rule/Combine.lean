import Eligibility.Rule.Parse

namespace Eligibility

inductive CombineError where
  | emptyInput
  | parse (e : ParseError)
  deriving DecidableEq

namespace CombineError

def message : CombineError → String
  | emptyInput => "no rules provided for combination"
  | parse e => e.message

end CombineError

namespace Rule

/-- The number of texts that hold the connective between spaces. A text can count for more than
one connective, or for none. -/
def holdingCount (c : Connective) (texts : List Text) : Nat :=
  texts.countP fun t => c.separator?.any t.includes

/-- The connective that joins rules: `AND`, unless more texts hold an `OR` than an `AND`. -/
def chooseConnective (texts : List Text) : Connective :=
  if holdingCount .or texts ≤ holdingCount .and texts then .and else .or

def appendRuleM (c : Connective) (root : ExceptT ParseError Logged Tree) (text : Text) :
    ExceptT ParseError Logged Tree := do
  let l ← root
  let r ← parseM text
  return .join c l r

/-- One tree of all the rules, joined in their order by one connective. The first text that is not
a rule is the error. -/
def combineM : List Text → ExceptT CombineError Logged Tree
  | [] => throw .emptyInput
  | first :: rest => do
    let texts := first :: rest
    let c := chooseConnective texts
    Logged.emit (.combiningRules texts.length (holdingCount .and texts) (holdingCount .or texts) c)
    (rest.foldl (appendRuleM c) (parseM first)).adapt .parse

def combine (texts : List Text) : Except CombineError Tree := (combineM texts).run.answer

def appendRule (c : Connective) (root : Except ParseError Tree) (text : Text) :
    Except ParseError Tree :=
  root.bind fun l => (parse text).bind fun r => .ok (.join c l r)

theorem answer_appendRuleM (c : Connective) (root : ExceptT ParseError Logged Tree)
    (text : Text) :
    (appendRuleM c root text).run.answer = appendRule c root.run.answer text := by
  simp only [appendRuleM, appendRule, parse, ExceptT.run_bind, Logged.answer_bind]
  cases root.run.answer with
  | error => rfl
  | ok l =>
    simp only [Logged.answer_bind, Except.bind]
    cases (parseM text).run.answer <;> rfl

theorem answer_foldl_appendRuleM (c : Connective) (root : ExceptT ParseError Logged Tree)
    (texts : List Text) : (texts.foldl (appendRuleM c) root).run.answer =
      texts.foldl (appendRule c) root.run.answer := by
  induction texts generalizing root with
  | nil => rfl
  | cons t texts ih => rw [List.foldl_cons, ih, answer_appendRuleM, List.foldl_cons]

theorem combine_nil : combine [] = .error .emptyInput := rfl

theorem combine_cons (first : Text) (rest : List Text) : combine (first :: rest) =
    (rest.foldl (appendRule (chooseConnective (first :: rest))) (parse first)).mapError
      .parse := by
  rw [parse, ← answer_foldl_appendRuleM]
  rfl

end Rule

end Eligibility

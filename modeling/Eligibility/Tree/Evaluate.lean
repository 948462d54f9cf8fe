import Eligibility.Comparison
import Eligibility.Tree.Basic

namespace Eligibility.Tree

/-- Whether a rule holds of the attributes. The right side of a join is visited only if the left
one has not decided, and a join that is not recognized does not hold. -/
def evaluateM : Tree → Attributes → Logged Bool
  | leaf condition, a => evaluateConditionM condition a
  | join .and l r, a => do
    if ← l.evaluateM a then r.evaluateM a else return false
  | join .or l r, a => do
    if ← l.evaluateM a then return true else r.evaluateM a
  | join (.other symbol) _ _, _ => Logged.refuse (.unrecognizedConnective symbol)

def evaluate (t : Tree) (a : Attributes) : Bool := (t.evaluateM a).answer

/-- As `evaluateM`; an absent rule holds of nothing and reports nothing. -/
def evaluateOptionM : Option Tree → Attributes → Logged Bool
  | none, _ => return false
  | some t, a => t.evaluateM a

@[simp] theorem evaluate_leaf (t : Text) (a : Attributes) :
    (leaf t).evaluate a = evaluateCondition t a := rfl

@[simp] theorem evaluate_join_and (l r : Tree) (a : Attributes) :
    (join .and l r).evaluate a = (l.evaluate a && r.evaluate a) := by
  simp only [evaluate, evaluateM, Logged.answer_bind]
  cases (l.evaluateM a).answer <;> rfl

@[simp] theorem evaluate_join_or (l r : Tree) (a : Attributes) :
    (join .or l r).evaluate a = (l.evaluate a || r.evaluate a) := by
  simp only [evaluate, evaluateM, Logged.answer_bind]
  cases (l.evaluateM a).answer <;> rfl

@[simp] theorem evaluate_join_other (s : Text) (l r : Tree) (a : Attributes) :
    (join (.other s) l r).evaluate a = false := rfl

theorem events_join_and (l r : Tree) (a : Attributes) :
    ((join .and l r).evaluateM a).events = (l.evaluateM a).events ++
      if l.evaluate a then (r.evaluateM a).events else [] := by
  simp only [evaluate, evaluateM, Logged.events_bind]
  by_cases h : (l.evaluateM a).answer <;> simp [h]

theorem events_join_or (l r : Tree) (a : Attributes) :
    ((join .or l r).evaluateM a).events = (l.evaluateM a).events ++
      if l.evaluate a then [] else (r.evaluateM a).events := by
  simp only [evaluate, evaluateM, Logged.events_bind]
  by_cases h : (l.evaluateM a).answer <;> simp [h]

end Eligibility.Tree

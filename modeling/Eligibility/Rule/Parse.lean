import Eligibility.Condition
import Eligibility.Logged
import Eligibility.Text.Cut
import Eligibility.Tree.Basic

namespace Eligibility

inductive ParseError where
  | invalidRule (text : Text)
  deriving DecidableEq

namespace ParseError

def message : ParseError → String
  | invalidRule text => "invalid rule: " ++ String.ofList text

end ParseError

namespace Rule

/-- The two parts of a text that a connective joins, the first connective of the list that the
text holds counting. -/
def splitOn? (t : Text) : List Connective → Option (Connective × Text × Text)
  | [] => none
  | c :: cs =>
    match c.separator?.bind t.firstTwo? with
    | some parts => some (c, parts)
    | none => splitOn? t cs

/-- `AND` is looked for in the whole text before `OR` is. -/
def split? (t : Text) : Option (Connective × Text × Text) := splitOn? t [.and, .or]

theorem length_lt_of_splitOn? {t left right : Text} {c : Connective} {cs : List Connective}
    (h : splitOn? t cs = some (c, left, right)) :
    left.length < t.length ∧ right.length < t.length := by
  induction cs with
  | nil => cases h
  | cons c' cs ih =>
    rw [splitOn?] at h
    split at h
    case h_1 parts hp =>
      obtain ⟨sep, hs, hf⟩ := Option.bind_eq_some_iff.1 hp
      cases h
      exact Text.length_lt_of_firstTwo? (Connective.separator?_ne_nil hs) hf
    case h_2 => exact ih h

theorem length_lt_of_split? {t left right : Text} {c : Connective}
    (h : split? t.trim = some (c, left, right)) :
    left.length < t.length ∧ right.length < t.length := by
  have ht := t.length_trim_le
  have := length_lt_of_splitOn? h
  omega

/-- The tree of a rule's text. A text that holds a connective is the two rules around it; any
other has to be a condition. -/
def parseM (t : Text) : ExceptT ParseError Logged Tree :=
  match _ : split? t.trim with
  | some (c, left, right) => do
    let l ← parseM left
    let r ← parseM right
    return .join c l r
  | none =>
    if isCondition t.trim then return .leaf t.trim
    else do
      Logged.emit (.rejectedRule t.trim)
      throw (.invalidRule t.trim)
termination_by t.length
decreasing_by
  · exact (length_lt_of_split? ‹_›).1
  · exact (length_lt_of_split? ‹_›).2

def parse (t : Text) : Except ParseError Tree := (parseM t).run.answer

theorem parse_eq_bind {t left right : Text} {c : Connective}
    (h : split? t.trim = some (c, left, right)) :
    parse t = (parse left).bind fun l => (parse right).bind fun r => .ok (.join c l r) := by
  rw [parse, parseM]
  split
  case h_1 he =>
    cases h.symm.trans he
    simp only [parse, ExceptT.run_bind, Logged.answer_bind]
    cases (parseM left).run.answer with
    | error => rfl
    | ok l =>
      simp only [Logged.answer_bind, Except.bind]
      cases (parseM right).run.answer <;> rfl
  case h_2 he => cases h.symm.trans he

theorem parse_eq_leaf {t : Text} (h : split? t.trim = none) :
    parse t = if isCondition t.trim then .ok (.leaf t.trim) else .error (.invalidRule t.trim) := by
  rw [parse, parseM]
  split
  case h_1 he => cases h.symm.trans he
  case h_2 => split <;> rfl

end Rule

end Eligibility

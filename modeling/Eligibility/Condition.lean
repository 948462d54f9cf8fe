import Eligibility.Order
import Eligibility.Text.Decimal

namespace Eligibility

inductive Comparator where
  | order (o : Order)
  | equality
  deriving DecidableEq

namespace Comparator

def symbol : Comparator → Text
  | order .above => ['>']
  | order .atLeast => ['>', '=']
  | order .below => ['<']
  | order .atMost => ['<', '=']
  | equality => ['=']

/-- The longest comparator that the text starts with, and the text after it. -/
def ofText? : Text → Option (Comparator × Text)
  | '>' :: '=' :: t => some (order .atLeast, t)
  | '>' :: t => some (order .above, t)
  | '<' :: '=' :: t => some (order .atMost, t)
  | '<' :: t => some (order .below, t)
  | '=' :: t => some (equality, t)
  | _ => none

theorem append_of_ofText? {t rest : Text} {c : Comparator} (h : ofText? t = some (c, rest)) :
    t = c.symbol ++ rest := by
  revert h
  fun_cases ofText? t <;> simp +contextual [symbol, eq_comm]

end Comparator

/-- A condition taken apart: an attribute compared with a number, or with a literal in single
quotes. The gaps are the spaces on the two sides of the comparator. -/
inductive Condition where
  | number (name gap : Text) (comparator : Comparator) (gap' digits : Text)
  | literal (name gap gap' body : Text)
  deriving DecidableEq

namespace Condition

def isLetter (c : Char) : Bool := c.isAlpha

/-- The space, the tab, and the line feed, the two tabulations and the return that follow it. -/
def isSpace (c : Char) : Bool := c = ' ' || ('\t' ≤ c && c ≤ '\r')

/-- The characters that end a line; none of them can stand in a literal. -/
def isLineBreak (c : Char) : Bool :=
  c = '\n' || c = '\r' || c = '\u0085' || c = '\u2028' || c = '\u2029'

def isName (t : Text) : Bool := !t.isEmpty && t.all isLetter

/-- A literal holds at least one character. Quotes are among those it can hold. -/
def isBody (t : Text) : Bool := !t.isEmpty && t.all (!isLineBreak ·)

def text : Condition → Text
  | number name gap comparator gap' digits => name ++ gap ++ comparator.symbol ++ gap' ++ digits
  | literal name gap gap' body => name ++ gap ++ '=' :: gap' ++ '\'' :: body ++ ['\'']

def WellFormed : Condition → Prop
  | number name gap _ gap' digits =>
    isName name = true ∧ gap.all isSpace = true ∧ gap'.all isSpace = true ∧ digits.isNumeral = true
  | literal name gap gap' body =>
    isName name = true ∧ gap.all isSpace = true ∧ gap'.all isSpace = true ∧ isBody body = true

instance (c : Condition) : Decidable c.WellFormed := by
  cases c <;> unfold WellFormed <;> infer_instance

/-- What stands between a quote at the start of the text and one at its end. -/
def quotedBody? : Text → Option Text
  | '\'' :: t => if t.getLast? = some '\'' ∧ isBody t.dropLast then some t.dropLast else none
  | _ => none

def ofText? (t : Text) : Option Condition :=
  let name := t.takeWhile isLetter
  let afterName := t.dropWhile isLetter
  let gap := afterName.takeWhile isSpace
  match Comparator.ofText? (afterName.dropWhile isSpace) with
  | none => none
  | some (comparator, afterComparator) =>
    let gap' := afterComparator.takeWhile isSpace
    let rest := afterComparator.dropWhile isSpace
    if name.isEmpty then none
    else if Text.isNumeral rest then some (number name gap comparator gap' rest)
    else if comparator = .equality then (quotedBody? rest).map (literal name gap gap')
    else none

end Condition

/-- Whether the whole text is one condition. Nothing is trimmed. -/
def isCondition (t : Text) : Bool := (Condition.ofText? t).isSome

end Eligibility

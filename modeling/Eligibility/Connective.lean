import Eligibility.Text.Basic

namespace Eligibility

/-- What joins two rules. A symbol that is neither `AND` nor `OR` is kept as it was written. -/
inductive Connective where
  | and
  | or
  | other (symbol : Text)
  deriving DecidableEq

namespace Connective

def symbol : Connective → Text
  | and => ['A', 'N', 'D']
  | or => ['O', 'R']
  | other s => s

/-- Upper and lower case differ, and nothing is trimmed. -/
def ofSymbol (s : Text) : Connective :=
  if s = ['A', 'N', 'D'] then and else if s = ['O', 'R'] then or else other s

/-- What stands between two rules that the connective joins in a text. An unrecognized connective
joins no texts. -/
def separator? : Connective → Option Text
  | and => some [' ', 'A', 'N', 'D', ' ']
  | or => some [' ', 'O', 'R', ' ']
  | other _ => none

/-- The connectives that `ofSymbol` gives: `other` does not hide one that has a name. -/
def Canonical : Connective → Prop
  | other s => s ≠ ['A', 'N', 'D'] ∧ s ≠ ['O', 'R']
  | _ => True

@[simp] theorem ofSymbol_and : ofSymbol ['A', 'N', 'D'] = and := rfl

@[simp] theorem ofSymbol_or : ofSymbol ['O', 'R'] = or := rfl

@[simp] theorem symbol_ofSymbol (s : Text) : (ofSymbol s).symbol = s := by
  rw [ofSymbol]
  split
  · simp [symbol, *]
  · split <;> simp [symbol, *]

theorem canonical_ofSymbol (s : Text) : (ofSymbol s).Canonical := by
  rw [ofSymbol]
  split
  · trivial
  · split
    · trivial
    · exact ⟨‹_›, ‹_›⟩

theorem ofSymbol_symbol_iff {c : Connective} : ofSymbol c.symbol = c ↔ c.Canonical := by
  refine ⟨fun h => h ▸ canonical_ofSymbol _, fun h => ?_⟩
  cases c with
  | and | or => rfl
  | other s => simp [ofSymbol, symbol, h.1, h.2]

theorem separator?_eq_symbol {c : Connective} {s : Text} (h : c.separator? = some s) :
    s = ' ' :: c.symbol ++ [' '] := by
  cases c <;> simp_all [separator?, symbol, eq_comm]

theorem separator?_ne_nil {c : Connective} {s : Text} (h : c.separator? = some s) : s ≠ [] := by
  simp [separator?_eq_symbol h]

end Connective

end Eligibility

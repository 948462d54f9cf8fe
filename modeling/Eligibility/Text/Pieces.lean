import Eligibility.Text.Basic

namespace Eligibility.Text

def consFirst (c : Char) : List Text → List Text
  | [] => [[c]]
  | p :: ps => (c :: p) :: ps

/-- All the pieces of a text between the separators, which are met from left to right and do not
overlap. An empty separator separates nothing. -/
def pieces : (t sep : Text) → List Text
  | [], _ => [[]]
  | c :: t, [] => consFirst c (pieces t [])
  | c :: t, s :: sep =>
    if (s :: sep).isPrefixOf (c :: t) then [] :: pieces (t.drop sep.length) (s :: sep)
    else consFirst c (pieces t (s :: sep))
termination_by t => t.length
decreasing_by all_goals simp only [List.length_cons, List.length_drop]; omega

theorem pieces_ne_nil (t sep : Text) : t.pieces sep ≠ [] := by
  fun_cases pieces t sep with
  | case1 | case3 => simp
  | case2 c t => cases h : pieces t [] <;> simp [consFirst]
  | case4 c t s sep => cases h : pieces t (s :: sep) <;> simp [consFirst]

end Eligibility.Text

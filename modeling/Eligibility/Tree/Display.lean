import Eligibility.Tree.Basic

namespace Eligibility.Tree

def displayOnto : Tree → (rest : Text) → Text
  | leaf t, rest => t ++ rest
  | join c l r, rest =>
    '(' :: l.displayOnto (' ' :: c.symbol ++ ' ' :: r.displayOnto (')' :: rest))

/-- The tree with parentheses around all that a connective joins. -/
def display (t : Tree) : Text := t.displayOnto []

theorem displayOnto_eq (t : Tree) (rest : Text) : t.displayOnto rest = t.display ++ rest := by
  induction t generalizing rest with
  | leaf => simp [display, displayOnto]
  | join c l r ihl ihr =>
    simp only [display, displayOnto]
    rw [ihl, ihr (')' :: rest), ihl (' ' :: _ ++ _), ihr [')']]
    simp

theorem display_leaf (t : Text) : (leaf t).display = t := List.append_nil t

theorem display_join (c : Connective) (l r : Tree) : (join c l r).display =
    '(' :: l.display ++ ' ' :: c.symbol ++ ' ' :: r.display ++ [')'] := by
  rw [display, displayOnto, displayOnto_eq, displayOnto_eq]
  simp

/-- The tree as a rule's text has it, without any parentheses. -/
def flat : Tree → Text
  | leaf t => t
  | join c l r => l.flat ++ ' ' :: c.symbol ++ ' ' :: r.flat

end Eligibility.Tree

import Eligibility.Connective

namespace Eligibility

/-- A rule: conditions, kept as texts, at the leaves and connectives above them. -/
inductive Tree where
  | leaf (condition : Text)
  | join (connective : Connective) (left right : Tree)
  deriving DecidableEq

namespace Tree

def and (left right : Tree) : Tree := join .and left right

def or (left right : Tree) : Tree := join .or left right

def isLeaf : Tree → Bool
  | leaf _ => true
  | join .. => false

def isJoin : Tree → Bool
  | leaf _ => false
  | join .. => true

def value : Tree → Text
  | leaf t => t
  | join c _ _ => c.symbol

def connective? : Tree → Option Connective
  | leaf _ => none
  | join c _ _ => some c

def left? : Tree → Option Tree
  | leaf _ => none
  | join _ l _ => some l

def right? : Tree → Option Tree
  | leaf _ => none
  | join _ _ r => some r

/-- The number of nodes on the longest way from the root to a leaf. -/
def depth : Tree → Nat
  | leaf _ => 1
  | join _ l r => 1 + max l.depth r.depth

def leaves : Tree → List Text
  | leaf t => [t]
  | join _ l r => l.leaves ++ r.leaves

def leafCount : Tree → Nat
  | leaf _ => 1
  | join _ l r => l.leafCount + r.leafCount

/-- Goes on to the left, with `n` nodes already passed. -/
def spineFrom (n : Nat) : Tree → Nat × Text
  | leaf t => (n + 1, t)
  | join _ l _ => spineFrom (n + 1) l

/-- The number of nodes on the way to the leftmost leaf, and the condition there. -/
def spine (t : Tree) : Nat × Text := spineFrom 0 t

theorem leafCount_eq_length (t : Tree) : t.leafCount = t.leaves.length := by
  induction t with
  | leaf => rfl
  | join c l r ihl ihr => simp [leafCount, leaves, ihl, ihr]

theorem spineFrom_eq (n : Nat) (t : Tree) : t.spineFrom n = (n + t.spine.1, t.spine.2) := by
  induction t generalizing n with
  | leaf => rfl
  | join c l r ihl =>
    simp only [spine, spineFrom]
    rw [ihl, ihl 1]
    simp only [Prod.mk.injEq, and_true]
    omega

end Tree

end Eligibility

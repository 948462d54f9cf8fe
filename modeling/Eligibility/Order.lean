namespace Eligibility

inductive Order where
  | above
  | atLeast
  | below
  | atMost
  deriving DecidableEq

namespace Order

def holds : Order → (actual threshold : Int) → Bool
  | above, v, n => v > n
  | atLeast, v, n => v ≥ n
  | below, v, n => v < n
  | atMost, v, n => v ≤ n

/-- The comparison that holds exactly where this one does not. -/
def opposite : Order → Order
  | above => atMost
  | atLeast => below
  | below => atLeast
  | atMost => above

theorem holds_opposite (o : Order) (v n : Int) : o.opposite.holds v n = !o.holds v n := by
  cases o <;> grind [opposite, holds]

end Order

end Eligibility

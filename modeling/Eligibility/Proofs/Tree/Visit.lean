import Eligibility.Tree.Evaluate

namespace Eligibility.Tree

/-- One step down from a join: its connective and the side that the step does not go to. -/
inductive Frame where
  | left (c : Connective) (r : Tree)
  | right (c : Connective) (l : Tree)

/-- A place in a tree: the steps that lead to it, the one from the root first. -/
abbrev Place := List Frame

variable {a : Attributes} {f : Frame} {k k' : Place} {l r t u v : Tree}
  {ps : List (Place × Tree)}

theorem evaluateM_join_and_decided (h : l.evaluate a = false) :
    (join .and l r).evaluateM a = l.evaluateM a := by
  apply Logged.ext
  · change (join .and l r).evaluate a = l.evaluate a
    rw [evaluate_join_and, h, Bool.false_and]
  · rw [events_join_and, if_neg (Bool.eq_false_iff.1 h), List.append_nil]

theorem evaluateM_join_or_decided (h : l.evaluate a = true) :
    (join .or l r).evaluateM a = l.evaluateM a := by
  apply Logged.ext
  · change (join .or l r).evaluate a = l.evaluate a
    rw [evaluate_join_or, h, Bool.true_or]
  · rw [events_join_or, if_pos h, List.append_nil]

namespace Frame

def fill : Frame → Tree → Tree
  | left c r, u => join c u r
  | right c l, u => join c l u

def isRight : Frame → Bool
  | left .. => false
  | right .. => true

/-- Whether evaluation does not enter the side: the right one after a left one that has decided,
and both under a connective that is not recognized. -/
def isSkipped (a : Attributes) : Frame → Bool
  | left (.other _) _ | right (.other _) _ => true
  | left _ _ => false
  | right .and l => !l.evaluate a
  | right .or l => l.evaluate a

theorem evaluateM_fill_congr (f : Frame) (h : u.evaluateM a = v.evaluateM a) :
    (f.fill u).evaluateM a = (f.fill v).evaluateM a := by
  cases f with
  | left c r => cases c <;> simp only [fill, evaluateM, h]
  | right c l => cases c <;> simp only [fill, evaluateM, h]

theorem evaluateM_fill_skipped (h : f.isSkipped a = true) (u v : Tree) :
    (f.fill u).evaluateM a = (f.fill v).evaluateM a := by
  cases f with
  | left c r =>
    cases c with
    | and => cases h
    | or => cases h
    | other symbol => rfl
  | right c l =>
    cases c with
    | and =>
      have hl : l.evaluate a = false := Bool.not_eq_true' _ ▸ h
      exact (evaluateM_join_and_decided hl).trans (evaluateM_join_and_decided hl).symm
    | or => exact (evaluateM_join_or_decided h).trans (evaluateM_join_or_decided h).symm
    | other symbol => rfl

end Frame

namespace Place

/-- The tree that has that subtree at the place. -/
def fill (k : Place) (u : Tree) : Tree := k.foldr Frame.fill u

/-- Whether a step to the place goes to a side that evaluation does not enter. -/
def isHidden (a : Attributes) (k : Place) : Bool := k.any (·.isSkipped a)

/-- The order from left to right. What a join joins comes after the join itself. -/
def Before (k k' : Place) : Prop := k.map Frame.isRight < k'.map Frame.isRight

theorem before_nil_cons (f : Frame) (k : Place) : Before [] (f :: k) := List.nil_lt_cons _ _

theorem before_cons_iff : Before (f :: k) (f :: k') ↔ Before k k' := by
  simp only [Before, List.map_cons, List.cons_lt_cons_iff, Bool.lt_irrefl, false_or, true_and]

theorem before_left_right (c : Connective) (l r : Tree) (k k' : Place) :
    Before (.left c r :: k) (.right c l :: k') := List.cons_lt_cons_iff.2 (.inl rfl)

/-- A tree is evaluated alike whatever stands at a hidden place of it. -/
theorem evaluateM_fill_hidden (h : k.isHidden a = true) (u v : Tree) :
    (k.fill u).evaluateM a = (k.fill v).evaluateM a := by
  -- A step to a side that is skipped hides all that follows it; above it the sides agree already.
  induction k with
  | nil => cases h
  | cons f k ih =>
    rw [isHidden, List.any_cons, Bool.or_eq_true] at h
    rcases h with hf | hk
    · exact Frame.evaluateM_fill_skipped hf _ _
    · exact f.evaluateM_fill_congr (ih hk)

end Place

def Frame.enter (f : Frame) (p : Place × Tree) : Place × Tree := (f :: p.1, p.2)

/-- The places of a tree from left to right, each with the subtree that stands there. -/
def places : Tree → List (Place × Tree)
  | leaf s => [([], leaf s)]
  | join c l r => ([], join c l r) ::
      (l.places.map (Frame.left c r).enter ++ r.places.map (Frame.right c l).enter)

theorem mem_map_enter_iff : (k, u) ∈ ps.map f.enter ↔ ∃ k', k = f :: k' ∧ (k', u) ∈ ps := by
  rw [List.mem_map]
  constructor
  · rintro ⟨p, hp, he⟩
    cases he
    exact ⟨p.1, rfl, hp⟩
  · rintro ⟨k', rfl, hp⟩
    exact ⟨(k', u), hp, rfl⟩

theorem mem_places_iff : (k, u) ∈ t.places ↔ k.fill u = t := by
  induction t generalizing k with
  | leaf s =>
    rw [places, List.mem_singleton]
    cases k with
    | nil => exact ⟨congrArg Prod.snd, congrArg (Prod.mk [])⟩
    | cons f k => cases f <;> exact ⟨nofun, nofun⟩
  | join c l r ihl ihr =>
    rw [places, List.mem_cons, List.mem_append, mem_map_enter_iff, mem_map_enter_iff]
    constructor
    · rintro (h | ⟨k, rfl, h⟩ | ⟨k, rfl, h⟩)
      · cases h
        rfl
      · exact congrArg (join c · r) (ihl.1 h)
      · exact congrArg (join c l) (ihr.1 h)
    · intro h
      -- The first step tells on which side of the root the place is.
      cases k with
      | nil => exact .inl (congrArg _ h)
      | cons f k =>
        cases f with
        | left d v =>
          obtain ⟨rfl, hl, rfl⟩ := join.inj h
          exact .inr (.inl ⟨k, rfl, ihl.2 hl⟩)
        | right d v =>
          obtain ⟨rfl, rfl, hr⟩ := join.inj h
          exact .inr (.inr ⟨k, rfl, ihr.2 hr⟩)

theorem pairwise_places (t : Tree) : t.places.Pairwise fun p q => p.1.Before q.1 := by
  induction t with
  | leaf s => exact List.pairwise_singleton _ _
  | join c l r ihl ihr =>
    rw [places, List.pairwise_cons, List.pairwise_append, List.pairwise_map, List.pairwise_map]
    refine ⟨?_, ihl.imp Place.before_cons_iff.2, ihr.imp Place.before_cons_iff.2, ?_⟩
    · intro p hp
      rcases List.mem_append.1 hp with hp | hp
      · obtain ⟨q, _, rfl⟩ := List.mem_map.1 hp
        exact Place.before_nil_cons _ _
      · obtain ⟨q, _, rfl⟩ := List.mem_map.1 hp
        exact Place.before_nil_cons _ _
    · intro p hp q hq
      obtain ⟨p, _, rfl⟩ := List.mem_map.1 hp
      obtain ⟨q, _, rfl⟩ := List.mem_map.1 hq
      exact Place.before_left_right c l r _ _

/-- What a node reports by itself: a condition why it fails, and a join that is not recognized
that it is not. -/
def report (a : Attributes) : Tree → List Event
  | leaf s => (evaluateConditionM s a).events
  | join (.other symbol) _ _ => [.unrecognizedConnective symbol]
  | join _ _ _ => []

/-- What the nodes at these places report, those at hidden places left out. -/
def reports (a : Attributes) (ps : List (Place × Tree)) : List Event :=
  (ps.filter fun p => !p.1.isHidden a).flatMap fun p => p.2.report a

theorem reports_append (ps qs : List (Place × Tree)) :
    reports a (ps ++ qs) = reports a ps ++ reports a qs := by
  rw [reports, List.filter_append, List.flatMap_append]
  rfl

theorem reports_map_enter (f : Frame) (ps : List (Place × Tree)) :
    reports a (ps.map f.enter) = if f.isSkipped a then [] else reports a ps := by
  have hp : (fun p : Place × Tree => !p.1.isHidden a) ∘ f.enter =
      fun p => !(f.isSkipped a || p.1.isHidden a) := rfl
  rw [reports, List.filter_map, List.flatMap_map, hp]
  cases f.isSkipped a with
  | true =>
    have hn : (ps.filter fun p => !(true || p.1.isHidden a)) = [] :=
      List.filter_eq_nil_iff.2 fun _ _ => Bool.false_ne_true
    rw [hn]
    rfl
  | false => rfl

theorem reports_places_join (c : Connective) (l r : Tree) : reports a (join c l r).places =
    (join c l r).report a ++
      ((if (Frame.left c r).isSkipped a then [] else reports a l.places) ++
        if (Frame.right c l).isSkipped a then [] else reports a r.places) := by
  rw [places, ← reports_map_enter, ← reports_map_enter, ← reports_append]
  rfl

theorem events_eq_reports (t : Tree) : (t.evaluateM a).events = reports a t.places := by
  induction t with
  | leaf s => exact (List.append_nil _).symm
  | join c l r ihl ihr =>
    rw [reports_places_join, ← ihl, ← ihr]
    cases c with
    | and =>
      rw [events_join_and]
      cases hl : l.evaluate a <;> simp [report, Frame.isSkipped, hl]
    | or =>
      rw [events_join_or]
      cases hl : l.evaluate a <;> simp [report, Frame.isSkipped, hl]
    | other symbol => rfl

/-- What stands at a hidden place of a tree changes neither the decision nor what is reported. The
nodes at all the other places report what they have to report in their order, each of them once. -/
theorem evaluate_visits_once (t : Tree) (a : Attributes) :
    (∀ k u, Place.fill k u = t → k.isHidden a = true → ∀ v,
      (Place.fill k v).evaluate a = t.evaluate a ∧
      ((Place.fill k v).evaluateM a).events = (t.evaluateM a).events) ∧
    ∃ ps : List (Place × Tree), ps.Pairwise (fun p q => p.1.Before q.1) ∧
      (∀ k u, (k, u) ∈ ps ↔ k.fill u = t ∧ k.isHidden a = false) ∧
      (t.evaluateM a).events = ps.flatMap fun p => p.2.report a := by
  constructor
  · rintro k u rfl hk v
    have he := Place.evaluateM_fill_hidden hk v u
    exact ⟨congrArg Logged.answer he, congrArg Logged.events he⟩
  · refine ⟨t.places.filter fun p => !p.1.isHidden a, t.pairwise_places.filter _, ?_,
      events_eq_reports t⟩
    intro k u
    rw [List.mem_filter, mem_places_iff, Bool.not_eq_true']

/-- The condition on `b` is hidden twice over, below an `AND` and a connective of its own. -/
theorem evaluate_visits_once_under_and :
    Place.fill [.left .or (leaf "d".toList), .right .and (leaf "a > 1".toList),
        .right (.other ['X']) (leaf "c < 3".toList)] (leaf "b = 'x'".toList) =
      or (and (leaf "a > 1".toList) (join (.other ['X']) (leaf "c < 3".toList)
        (leaf "b = 'x'".toList))) (leaf "d".toList) ∧
    Place.isHidden (.ofList [(['a'], .int 1)]) [.left .or (leaf "d".toList),
        .right .and (leaf "a > 1".toList), .right (.other ['X']) (leaf "c < 3".toList)] = true ∧
    ((Place.fill [.left .or (leaf "d".toList), .right .and (leaf "a > 1".toList),
        .right (.other ['X']) (leaf "c < 3".toList)]
          (or (leaf "a < 2".toList) (leaf "e > 4".toList))).evaluateM
        (.ofList [(['a'], .int 1)])).events = [.noComparator ['d']] := by
  have hf : Place.fill [.left .or (leaf "d".toList), .right .and (leaf "a > 1".toList),
        .right (.other ['X']) (leaf "c < 3".toList)] (leaf "b = 'x'".toList) =
      or (and (leaf "a > 1".toList) (join (.other ['X']) (leaf "c < 3".toList)
        (leaf "b = 'x'".toList))) (leaf "d".toList) := rfl
  have hk : Place.isHidden (.ofList [(['a'], .int 1)]) [.left .or (leaf "d".toList),
        .right .and (leaf "a > 1".toList), .right (.other ['X']) (leaf "c < 3".toList)] = true := by
    decide
  refine ⟨hf, hk, ?_⟩
  rw [((evaluate_visits_once _ _).1 _ _ hf hk _).2]
  decide

end Eligibility.Tree

import Eligibility.Proofs.Rule.Spine
import Eligibility.Tree.Evaluate

namespace Eligibility

/-- Whether one rule with that result settles what the connective makes of all that it joins. -/
def Connective.settledBy : Connective → (result : Bool) → Bool
  | and, result => !result
  | or, result => result
  | other _, _ => false

namespace Rule

variable {c : Connective} {a : Attributes} {u v : Tree} {us : List Tree} {ts : List Text}

/-- Evaluates rules in their order, up to the first whose result settles what becomes of all. -/
def evaluateInTurnM (c : Connective) (a : Attributes) : Tree → List Tree → Logged Bool
  | u, [] => u.evaluateM a
  | u, v :: us => do
    let result ← u.evaluateM a
    if c.settledBy result then return result else evaluateInTurnM c a v us

/-- The place of the first rule whose result settles what becomes of all, or of the last rule if
there is none. -/
def lastVisited (c : Connective) (a : Attributes) (us : List Tree) : Nat :=
  (us.findIdx? fun u => c.settledBy (u.evaluate a)).getD (us.length - 1)

theorem evaluateM_join (hc : c = .and ∨ c = .or) (u v : Tree) (a : Attributes) :
    (Tree.join c u v).evaluateM a = u.evaluateM a >>= fun result =>
      if c.settledBy result then pure result else v.evaluateM a := by
  rcases hc with rfl | rfl
  · apply bind_congr
    intro result
    cases result with
    | true => rfl
    | false => rfl
  · apply bind_congr
    intro result
    cases result with
    | true => rfl
    | false => rfl

/-- The exits from joins nested to the left are exits from one list. -/
theorem evaluateM_foldl (hc : c = .and ∨ c = .or) (u : Tree) (us : List Tree) (a : Attributes) :
    (us.foldl (.join c) u).evaluateM a = evaluateInTurnM c a u us := by
  induction us generalizing u with
  | nil => rfl
  | cons v us ih =>
    rw [List.foldl_cons, ih]
    cases us with
    | nil => exact evaluateM_join hc u v a
    | cons w us =>
      rw [evaluateInTurnM, evaluateM_join hc, bind_assoc, evaluateInTurnM]
      apply bind_congr
      intro result
      cases h : c.settledBy result with
      | true => simp only [↓reduceIte, pure_bind, h]
      | false => rw [evaluateInTurnM]; rfl

theorem lastVisited_of_settled (h : c.settledBy (u.evaluate a) = true) :
    lastVisited c a (u :: us) = 0 := by
  rw [lastVisited, List.findIdx?_cons, if_pos h]
  rfl

theorem lastVisited_of_not_settled (h : c.settledBy (u.evaluate a) = false) :
    lastVisited c a (u :: v :: us) = lastVisited c a (v :: us) + 1 := by
  rw [lastVisited, List.findIdx?_cons, if_neg (Bool.eq_false_iff.1 h), lastVisited]
  cases (v :: us).findIdx? fun u => c.settledBy (u.evaluate a) with
  | none => rfl
  | some k => rfl

theorem lastVisited_singleton (c : Connective) (a : Attributes) (u : Tree) :
    lastVisited c a [u] = 0 := by
  cases h : c.settledBy (u.evaluate a) with
  | true => exact lastVisited_of_settled h
  | false =>
    rw [lastVisited, List.findIdx?_cons, if_neg (Bool.eq_false_iff.1 h)]
    rfl

theorem evaluateInTurnM_of_settled (h : c.settledBy (u.evaluate a) = true) (v : Tree)
    (us : List Tree) : evaluateInTurnM c a u (v :: us) = u.evaluateM a := by
  have hu : c.settledBy (u.evaluateM a).answer = true := h
  apply Logged.ext
  · rw [evaluateInTurnM, Logged.answer_bind, if_pos hu]
    rfl
  · rw [evaluateInTurnM, Logged.events_bind, if_pos hu]
    exact List.append_nil _

theorem evaluateInTurnM_of_not_settled (h : c.settledBy (u.evaluate a) = false) (v : Tree)
    (us : List Tree) : evaluateInTurnM c a u (v :: us) =
      ⟨(evaluateInTurnM c a v us).answer,
        (u.evaluateM a).events ++ (evaluateInTurnM c a v us).events⟩ := by
  have hu : ¬ c.settledBy (u.evaluateM a).answer = true := Bool.eq_false_iff.1 h
  apply Logged.ext
  · rw [evaluateInTurnM, Logged.answer_bind, if_neg hu]
  · rw [evaluateInTurnM, Logged.events_bind, if_neg hu]

/-- The last rule that is visited in turn gives the result, and no rule behind it reports. -/
theorem evaluateInTurnM_eq (c : Connective) (a : Attributes) (u : Tree) (us : List Tree) :
    ∃ last, (u :: us)[lastVisited c a (u :: us)]? = some last ∧
      evaluateInTurnM c a u us = ⟨last.evaluate a,
        ((u :: us).take (lastVisited c a (u :: us) + 1)).flatMap
          fun v => (v.evaluateM a).events⟩ := by
  -- Where the first rule is the last one visited, its own events are all there are.
  have hfirst (u : Tree) :
      u.evaluateM a = ⟨u.evaluate a, [u].flatMap fun v => (v.evaluateM a).events⟩ :=
    Logged.ext rfl (List.append_nil _).symm
  induction us generalizing u with
  | nil =>
    rw [lastVisited_singleton]
    exact ⟨u, rfl, hfirst u⟩
  | cons v us ih =>
    cases h : c.settledBy (u.evaluate a) with
    | true =>
      rw [lastVisited_of_settled h, evaluateInTurnM_of_settled h]
      exact ⟨u, rfl, hfirst u⟩
    | false =>
      obtain ⟨last, hlast, he⟩ := ih v
      rw [lastVisited_of_not_settled h, evaluateInTurnM_of_not_settled h, he]
      exact ⟨last, hlast, rfl⟩

/-- Combined rules are evaluated in their order, up to the first one that settles the result: under
`AND` one that does not hold, under `OR` one that does. Exactly these rules report, each what it
reports alone, and the last of them gives the result. -/
theorem combine_stops_at_first_decision (hne : ts ≠ []) (h : ts.map parse = us.map .ok)
    (a : Attributes) : ∃ root last, combine ts = .ok root ∧
      us[lastVisited (chooseConnective ts) a us]? = some last ∧ root.evaluate a = last.evaluate a ∧
      (root.evaluateM a).events = (us.take (lastVisited (chooseConnective ts) a us + 1)).flatMap
        fun u => (u.evaluateM a).events := by
  cases us with
  | nil => exact absurd (List.map_eq_nil_iff.1 h) hne
  | cons u us =>
    obtain ⟨last, hlast, he⟩ := evaluateInTurnM_eq (chooseConnective ts) a u us
    rw [← evaluateM_foldl (chooseConnective_cases ts)] at he
    have hanswer := congrArg Logged.answer he
    exact ⟨_, last, combine_eq_ok h, hlast, hanswer, congrArg Logged.events he⟩

theorem combine_stops_at_second_rule :
    ["a > 1 OR b = 'x'".toList, "c >= 3".toList, "d < 4".toList].map parse =
      [.or (.leaf "a > 1".toList) (.leaf "b = 'x'".toList), .leaf "c >= 3".toList,
        .leaf "d < 4".toList].map .ok ∧
    ∃ root, combine ["a > 1 OR b = 'x'".toList, "c >= 3".toList, "d < 4".toList] = .ok root ∧
      root.evaluate (.ofList [(['c'], .int 3), (['b'], .int 2)]) = true ∧
      (root.evaluateM (.ofList [(['c'], .int 3), (['b'], .int 2)])).events =
        [.missingAttribute ['a'], .equalityOnInteger ['b']] := by
  have hp : ["a > 1 OR b = 'x'".toList, "c >= 3".toList, "d < 4".toList].map parse =
      [.or (.leaf "a > 1".toList) (.leaf "b = 'x'".toList), .leaf "c >= 3".toList,
        .leaf "d < 4".toList].map .ok := by
    simp only [List.map_cons, List.map_nil, parse_eq_parseWithin]
    decide
  obtain ⟨root, last, hr, hlast, hanswer, hevents⟩ := combine_stops_at_first_decision
    (List.cons_ne_nil _ _) hp (.ofList [(['c'], .int 3), (['b'], .int 2)])
  have hsecond : last = .leaf "c >= 3".toList := Option.some.inj (hlast.symm.trans (by decide))
  refine ⟨hp, root, hr, ?_, hevents.trans (by decide)⟩
  rw [hanswer, hsecond]
  decide

end Rule

end Eligibility

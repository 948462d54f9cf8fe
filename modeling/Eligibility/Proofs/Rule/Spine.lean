import Eligibility.Proofs.Rule.Depth
import Eligibility.Rule.Combine

namespace Eligibility

/-- The joins met on `n` steps to the left, the uppermost first and each with its right side, and
the tree that the steps end at. -/
def Tree.leftSteps? : (n : Nat) → Tree → Option (List (Connective × Tree) × Tree)
  | 0, t => some ([], t)
  | _ + 1, .leaf _ => none
  | n + 1, .join c l r => (leftSteps? n l).map fun p => ((c, r) :: p.1, p.2)

/-- The spine counts the nodes on the way that the steps to the left take, and ends where they
reach a condition. -/
theorem Tree.exists_leftSteps?_spine (t : Tree) : ∃ steps, t.spine.1 = steps.length + 1 ∧
    t.leftSteps? steps.length = some (steps, .leaf t.spine.2) := by
  induction t with
  | leaf s => exact ⟨[], rfl, rfl⟩
  | join c l r ihl =>
    obtain ⟨steps, hcount, hsteps⟩ := ihl
    have hspine : (join c l r).spine = (1 + l.spine.1, l.spine.2) := spineFrom_eq 1 l
    refine ⟨(c, r) :: steps, ?_, ?_⟩
    · rw [hspine, hcount, List.length_cons, Nat.add_comm]
    · rw [hspine, List.length_cons, leftSteps?, hsteps]
      rfl

namespace Rule

variable {c : Connective} {ts : List Text} {u : Tree} {us : List Tree} {e : ParseError}

theorem joinAll_concat (c : Connective) (u v : Tree) (us : List Tree) :
    joinAll c (u :: (us ++ [v])) = .join c (joinAll c (u :: us)) v := by
  rw [joinAll, joinAll, List.foldl_append]
  rfl

theorem leftSteps?_joinAll (c : Connective) (u : Tree) (us : List Tree) :
    (joinAll c (u :: us)).leftSteps? us.length = some (us.reverse.map (c, ·), u) := by
  -- The last tree is the right side of the root, so the steps go through the list from its end.
  induction us using List.reverseRecOn with
  | nil => rfl
  | append_singleton us v ih =>
    rw [joinAll_concat, List.length_append, List.length_singleton, Tree.leftSteps?, ih,
      List.reverse_concat]
    rfl

theorem foldl_appendRule (c : Connective) (root : Except ParseError Tree) (ts : List Text) :
    ts.foldl (appendRule c) root =
      root.bind fun u => (ts.mapM parse).map fun us => us.foldl (.join c) u := by
  induction ts generalizing root with
  | nil => cases root <;> rfl
  | cons t ts ih =>
    rw [List.foldl_cons, ih]
    cases root with
    | error e => rfl
    | ok u =>
      cases ht : parse t with
      | error e =>
        rw [mapM_cons_of_error ht, appendRule, ht]
        rfl
      | ok v =>
        rw [mapM_cons_of_ok ht, appendRule, ht]
        cases ts.mapM parse <;> rfl

/-- Combining reads all the texts and joins what they are. -/
theorem combine_eq_mapM (h : ts ≠ []) : combine ts =
    ((ts.mapM parse).map (joinAll (chooseConnective ts))).mapError .parse := by
  cases ts with
  | nil => exact absurd rfl h
  | cons t ts =>
    rw [combine_cons, foldl_appendRule]
    cases ht : parse t with
    | error e =>
      rw [mapM_cons_of_error ht]
      rfl
    | ok u =>
      rw [mapM_cons_of_ok ht]
      cases ts.mapM parse <;> rfl

theorem combine_eq_ok (h : ts.map parse = (u :: us).map .ok) :
    combine ts = .ok (joinAll (chooseConnective ts) (u :: us)) := by
  have hne : ts ≠ [] := by
    rintro rfl
    cases h
  rw [combine_eq_mapM hne, mapM_eq_ok_iff.2 h]
  rfl

theorem exists_map_parse_eq_ok (hne : ts ≠ []) (h : ∀ t ∈ ts, ∃ u, parse t = .ok u) :
    ∃ u us, ts.map parse = (u :: us).map .ok := by
  obtain ⟨us, hus⟩ := exists_map_eq_ok h
  cases us with
  | nil => exact absurd (List.map_eq_nil_iff.1 hus) hne
  | cons u us => exact ⟨u, us, hus⟩

theorem exists_trees_of_combine (h : combine ts = .ok u) : ∃ v vs,
    ts.map parse = (v :: vs).map .ok ∧ u = joinAll (chooseConnective ts) (v :: vs) := by
  have hne : ts ≠ [] := by
    rintro rfl
    cases h
  rw [combine_eq_mapM hne] at h
  cases hts : ts.mapM parse with
  | error e => rw [hts] at h; cases h
  | ok us =>
    rw [hts] at h
    cases h
    have hmap := mapM_eq_ok_iff.1 hts
    cases us with
    | nil => exact absurd (List.map_eq_nil_iff.1 hmap) hne
    | cons v vs => exact ⟨v, vs, hmap, rfl⟩

theorem combine_eq_emptyInput_iff : combine ts = .error .emptyInput ↔ ts = [] := by
  constructor
  · intro h
    apply Decidable.byContradiction
    intro hne
    rw [combine_eq_mapM hne] at h
    cases hts : ts.mapM parse with
    | error e => rw [hts] at h; cases h
    | ok us => rw [hts] at h; cases h
  · rintro rfl
    exact combine_nil

theorem combine_eq_parse_iff : combine ts = .error (.parse e) ↔ ts.mapM parse = .error e := by
  cases ts with
  | nil => exact ⟨nofun, nofun⟩
  | cons t ts =>
    rw [combine_eq_mapM (List.cons_ne_nil t ts)]
    cases (t :: ts).mapM parse with
    | error e' =>
      constructor
      · intro h
        cases h
        rfl
      · intro h
        cases h
        rfl
    | ok us => exact ⟨nofun, nofun⟩

theorem holdingCount_eq (h : c.separator? = some c.spaced) (ts : List Text) :
    holdingCount c ts = ts.countP (c.spaced <:+: ·) := by
  rw [holdingCount, h]
  congr 1
  funext t
  rw [Option.any_some, Bool.eq_iff_iff, Text.includes_iff, decide_eq_true_iff]

theorem chooseConnective_eq_and_iff : chooseConnective ts = .and ↔
    ts.countP (Connective.or.spaced <:+: ·) ≤ ts.countP (Connective.and.spaced <:+: ·) := by
  rw [← holdingCount_eq (c := .or) rfl, ← holdingCount_eq (c := .and) rfl, chooseConnective]
  split
  case isTrue h => exact ⟨fun _ => h, fun _ => rfl⟩
  case isFalse h => exact ⟨nofun, fun h' => absurd h' h⟩

theorem chooseConnective_cases (ts : List Text) :
    chooseConnective ts = .and ∨ chooseConnective ts = .or := by
  rw [chooseConnective]
  split
  · exact .inl rfl
  · exact .inr rfl

/-- Combining fails on no texts, and else with the error of the first text that is no rule. If all
texts are rules, these stand unchanged on the right sides down the left spine, the last one on top,
and the first one at its end; all joins of the spine carry the connective that is `AND` unless more
texts hold an `OR`. -/
theorem combine_builds_spine (ts : List Text) :
    (combine ts = .error .emptyInput ↔ ts = []) ∧
    (∀ e, combine ts = .error (.parse e) ↔ ∃ before t after, ts = before ++ t :: after ∧
      (∀ s ∈ before, ∃ u, parse s = .ok u) ∧ parse t = .error e) ∧
    (∀ u us, ts.map parse = (u :: us).map .ok → ∃ root, combine ts = .ok root ∧
      root.leftSteps? us.length = some (us.reverse.map (chooseConnective ts, ·), u)) ∧
    (chooseConnective ts = .and ∨ chooseConnective ts = .or) ∧
    (chooseConnective ts = .and ↔
      ts.countP (Connective.or.spaced <:+: ·) ≤ ts.countP (Connective.and.spaced <:+: ·)) := by
  refine ⟨combine_eq_emptyInput_iff, ?_, ?_, chooseConnective_cases ts,
    chooseConnective_eq_and_iff⟩
  · intro e
    rw [combine_eq_parse_iff, mapM_eq_error_iff]
  · intro u us h
    exact ⟨_, combine_eq_ok h, leftSteps?_joinAll _ u us⟩

theorem combine_builds_or_spine :
    ["a > 1".toList, "b > 2 OR c > 3".toList, "d > 4".toList].map parse =
      [.leaf "a > 1".toList, .or (.leaf "b > 2".toList) (.leaf "c > 3".toList),
        .leaf "d > 4".toList].map .ok ∧
    ∃ root, combine ["a > 1".toList, "b > 2 OR c > 3".toList, "d > 4".toList] = .ok root ∧
      root.leftSteps? 2 = some ([(.or, .leaf "d > 4".toList),
        (.or, .or (.leaf "b > 2".toList) (.leaf "c > 3".toList))], .leaf "a > 1".toList) := by
  have hp : ["a > 1".toList, "b > 2 OR c > 3".toList, "d > 4".toList].map parse =
      [.leaf "a > 1".toList, .or (.leaf "b > 2".toList) (.leaf "c > 3".toList),
        .leaf "d > 4".toList].map .ok := by
    simp only [List.map_cons, List.map_nil, parse_eq_parseWithin]
    decide
  have hc : chooseConnective ["a > 1".toList, "b > 2 OR c > 3".toList, "d > 4".toList] = .or := by
    decide
  obtain ⟨root, hr, hs⟩ := (combine_builds_spine _).2.2.1 _ _ hp
  rw [hc] at hs
  exact ⟨hp, root, hr, hs⟩

end Rule

end Eligibility

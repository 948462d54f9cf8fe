import Eligibility.Proofs.Rule.Spine
import Eligibility.Tree.Evaluate

namespace Eligibility.Rule

variable {ss ts : List Text} {u : Tree} {us : List Tree}

theorem evaluate_foldl_and (u : Tree) (us : List Tree) (a : Attributes) :
    (us.foldl (.join .and) u).evaluate a = (u.evaluate a && us.all (·.evaluate a)) := by
  induction us generalizing u with
  | nil => exact (Bool.and_true _).symm
  | cons v us ih => rw [List.foldl_cons, ih, Tree.evaluate_join_and, Bool.and_assoc, List.all_cons]

theorem evaluate_foldl_or (u : Tree) (us : List Tree) (a : Attributes) :
    (us.foldl (.join .or) u).evaluate a = (u.evaluate a || us.any (·.evaluate a)) := by
  induction us generalizing u with
  | nil => exact (Bool.or_false _).symm
  | cons v us ih => rw [List.foldl_cons, ih, Tree.evaluate_join_or, Bool.or_assoc, List.any_cons]

/-- Rules joined by `AND` hold together, and rules joined by `OR` where one of them holds. -/
theorem evaluate_joinAll (ts : List Text) (h : us ≠ []) (a : Attributes) :
    chooseConnective ts = .and ∧
        (joinAll (chooseConnective ts) us).evaluate a = us.all (·.evaluate a) ∨
      chooseConnective ts = .or ∧
        (joinAll (chooseConnective ts) us).evaluate a = us.any (·.evaluate a) := by
  cases us with
  | nil => exact absurd rfl h
  | cons u us =>
    rcases chooseConnective_cases ts with hc | hc
    · rw [hc]
      exact .inl ⟨rfl, evaluate_foldl_and u us a⟩
    · rw [hc]
      exact .inr ⟨rfl, evaluate_foldl_or u us a⟩

/-- Whether the text is a rule that holds of the attributes. -/
def grants (a : Attributes) (t : Text) : Bool :=
  match parse t with
  | .ok u => u.evaluate a
  | .error _ => false

theorem map_grants (h : ts.map parse = us.map .ok) (a : Attributes) :
    ts.map (grants a) = us.map (·.evaluate a) := by
  have hg : grants a = (fun x : Except ParseError Tree =>
      match x with
      | .ok u => u.evaluate a
      | .error _ => false) ∘ parse := rfl
  rw [hg, ← List.map_map, h, List.map_map]
  rfl

/-- The decision of combined rules is made of the decisions of the single texts. -/
theorem evaluate_combine (h : combine ts = .ok u) (a : Attributes) :
    chooseConnective ts = .and ∧ u.evaluate a = ts.all (grants a) ∨
      chooseConnective ts = .or ∧ u.evaluate a = ts.any (grants a) := by
  obtain ⟨v, vs, hvs, rfl⟩ := exists_trees_of_combine h
  have hall : ts.all (grants a) = (v :: vs).all (·.evaluate a) := by
    have hm := congrArg (List.all · id) (map_grants hvs a)
    rwa [List.all_map, List.all_map] at hm
  have hany : ts.any (grants a) = (v :: vs).any (·.evaluate a) := by
    have hm := congrArg (List.any · id) (map_grants hvs a)
    rwa [List.any_map, List.any_map] at hm
  rw [hall, hany]
  exact evaluate_joinAll ts (List.cons_ne_nil v vs) a

theorem exists_combine_iff :
    (∃ u, combine ts = .ok u) ↔ ts ≠ [] ∧ ∀ t ∈ ts, ∃ u, parse t = .ok u := by
  apply Iff.intro
  · intro ⟨u, hu⟩
    obtain ⟨v, vs, hvs, -⟩ := exists_trees_of_combine hu
    apply And.intro
    · intro hts
      rw [hts] at hvs
      cases hvs
    · intro t ht
      have hm := List.mem_map_of_mem (f := parse) ht
      rw [hvs] at hm
      obtain ⟨w, -, hw⟩ := List.mem_map.1 hm
      exact ⟨w, hw.symm⟩
  · intro ⟨hne, h⟩
    obtain ⟨v, vs, hvs⟩ := exists_map_parse_eq_ok hne h
    exact ⟨_, combine_eq_ok hvs⟩

/-- Either both lists of texts can be combined or neither, and the rules that they are combined
into hold of the same attributes. -/
def DecideAlike (ss ts : List Text) : Prop :=
  ((∃ u, combine ss = .ok u) ↔ ∃ v, combine ts = .ok v) ∧
  ∀ u v, combine ss = .ok u → combine ts = .ok v → ∀ a, u.evaluate a = v.evaluate a

/-- What a list of texts decides depends on which texts it holds and on the connective that it
chooses, and neither on their order nor on how often each of them is there. -/
theorem decideAlike_of_mem_iff (h : ∀ t, t ∈ ss ↔ t ∈ ts)
    (hc : chooseConnective ss = chooseConnective ts) : DecideAlike ss ts := by
  have hall (a : Attributes) : ss.all (grants a) = ts.all (grants a) := by
    rw [Bool.eq_iff_iff, List.all_eq_true, List.all_eq_true]
    simp only [h]
  have hany (a : Attributes) : ss.any (grants a) = ts.any (grants a) := by
    rw [Bool.eq_iff_iff, List.any_eq_true, List.any_eq_true]
    simp only [h]
  apply And.intro
  · simp only [exists_combine_iff, ne_eq, List.eq_nil_iff_forall_not_mem, h]
  · intro u v hu hv a
    rcases evaluate_combine hu a with ⟨hs, he⟩ | ⟨hs, he⟩
    · rcases evaluate_combine hv a with ⟨ht, he'⟩ | ⟨ht, he'⟩
      · rw [he, he', hall]
      · rw [hs, ht] at hc
        cases hc
    · rcases evaluate_combine hv a with ⟨ht, he'⟩ | ⟨ht, he'⟩
      · rw [hs, ht] at hc
        cases hc
      · rw [he, he', hany]

theorem chooseConnective_congr (h : holdingCount .or ss ≤ holdingCount .and ss ↔
    holdingCount .or ts ≤ holdingCount .and ts) : chooseConnective ss = chooseConnective ts := by
  rw [chooseConnective, chooseConnective]
  exact if_congr h rfl rfl

theorem holdingCount_perm (h : ss.Perm ts) (c : Connective) :
    holdingCount c ss = holdingCount c ts :=
  h.countP_eq _

theorem decideAlike_of_perm (h : ss.Perm ts) : DecideAlike ss ts := by
  apply decideAlike_of_mem_iff
  · intro t
    exact h.mem_iff
  · apply chooseConnective_congr
    rw [holdingCount_perm h, holdingCount_perm h]

theorem holdingCount_repeat (c : Connective) (k : Nat) (ts : List Text) :
    holdingCount c (List.replicate k ts).flatten = k * holdingCount c ts := by
  rw [holdingCount, List.countP_flatten, List.map_replicate, List.sum_replicate_nat]
  rfl

theorem decideAlike_repeat {k : Nat} (hk : 1 ≤ k) (ts : List Text) :
    DecideAlike (List.replicate k ts).flatten ts := by
  apply decideAlike_of_mem_iff
  · intro t
    rw [List.mem_flatten]
    apply Iff.intro
    · intro ⟨l, hl, ht⟩
      exact List.eq_of_mem_replicate hl ▸ ht
    · intro ht
      exact ⟨ts, List.mem_replicate.2 ⟨Nat.ne_of_gt hk, rfl⟩, ht⟩
  · apply chooseConnective_congr
    rw [holdingCount_repeat, holdingCount_repeat, Nat.mul_le_mul_left_iff hk]

/-- Neither the order of rules nor repeating all of them equally often changes whether they can be
combined and what they then decide. -/
theorem combine_ignores_order_and_repetition (ts : List Text) :
    (∀ ss, ss.Perm ts → DecideAlike ss ts) ∧
    ∀ k, 1 ≤ k → DecideAlike (List.replicate k ts).flatten ts :=
  ⟨fun _ => decideAlike_of_perm, fun _ hk => decideAlike_repeat hk ts⟩

/-- The three rules are joined by `OR`, in another order on the left and twice over on the right. -/
theorem combine_ignores_order_of_three_rules :
    ["e > 5 OR f > 6".toList, "a > 1 AND b > 2".toList, "c > 3 OR d > 4".toList].Perm
      ["a > 1 AND b > 2".toList, "c > 3 OR d > 4".toList, "e > 5 OR f > 6".toList] ∧
    1 ≤ 2 ∧ ∃ u v w,
      combine ["e > 5 OR f > 6".toList, "a > 1 AND b > 2".toList, "c > 3 OR d > 4".toList] = .ok u ∧
      combine ["a > 1 AND b > 2".toList, "c > 3 OR d > 4".toList, "e > 5 OR f > 6".toList] = .ok v ∧
      combine (List.replicate 2 ["a > 1 AND b > 2".toList, "c > 3 OR d > 4".toList,
        "e > 5 OR f > 6".toList]).flatten = .ok w ∧
      ∀ a, u.evaluate a = v.evaluate a ∧ w.evaluate a = v.evaluate a := by
  have hperm : ["e > 5 OR f > 6".toList, "a > 1 AND b > 2".toList, "c > 3 OR d > 4".toList].Perm
      ["a > 1 AND b > 2".toList, "c > 3 OR d > 4".toList, "e > 5 OR f > 6".toList] := by decide
  have hparse : ∀ t ∈ ["a > 1 AND b > 2".toList, "c > 3 OR d > 4".toList,
      "e > 5 OR f > 6".toList], ∃ u, parse t = .ok u := by
    simp only [parse_eq_parseWithin, List.forall_mem_cons]
    exact ⟨⟨_, rfl⟩, ⟨_, rfl⟩, ⟨_, rfl⟩, nofun⟩
  obtain ⟨horder, hrepeat⟩ := combine_ignores_order_and_repetition
    ["a > 1 AND b > 2".toList, "c > 3 OR d > 4".toList, "e > 5 OR f > 6".toList]
  have hu := horder _ hperm
  have hw := hrepeat 2 (by decide)
  obtain ⟨v, hv⟩ := exists_combine_iff.2 ⟨List.cons_ne_nil _ _, hparse⟩
  obtain ⟨u, hcu⟩ := hu.1.2 ⟨v, hv⟩
  obtain ⟨w, hcw⟩ := hw.1.2 ⟨v, hv⟩
  exact ⟨hperm, by decide, u, v, w, hcu, hv, hcw,
    fun a => ⟨hu.2 u v hcu hv a, hw.2 w v hcw hv a⟩⟩

end Eligibility.Rule

import Eligibility.Proofs.Tree.Monotone

namespace Eligibility

variable {a : Attributes} {name s threshold back : Text} {d : Char} {o : Order} {v w : Int64}
  {t : Tree}

/-- Whether the order holds of the second number wherever it holds of the first one. -/
def Order.Carries (o : Order) (v w : Int64) : Prop :=
  ∀ n : Int64, o.relation v.toInt n.toInt → o.relation w.toInt n.toInt

theorem Order.carries_of_le (h : v ≤ w) (ho : o = .above ∨ o = .atLeast) : o.Carries v w := by
  rw [Int64.le_iff_toInt_le] at h
  intro n hn
  rcases ho with rfl | rfl
  · exact Int.lt_of_lt_of_le hn h
  · exact Int.le_trans hn h

theorem Order.carries_of_ge (h : v ≤ w) (ho : o = .below ∨ o = .atMost) : o.Carries w v := by
  rw [Int64.le_iff_toInt_le] at h
  intro n hn
  rcases ho with rfl | rfl
  · exact Int.lt_of_le_of_lt h hn
  · exact Int.le_trans h hn

/-- The first character of a comparator tells in which direction it orders. -/
theorem Comparator.direction_of_ofText? (h : ofText? (d :: back) = some (.order o, threshold)) :
    d = '>' ∧ (o = .above ∨ o = .atLeast) ∨ d = '<' ∧ (o = .below ∨ o = .atMost) := by
  have hd := append_of_ofText? h
  cases o with
  | above => exact .inl ⟨(List.cons.inj hd).1, .inl rfl⟩
  | atLeast => exact .inl ⟨(List.cons.inj hd).1, .inr rfl⟩
  | below => exact .inr ⟨(List.cons.inj hd).1, .inl rfl⟩
  | atMost => exact .inr ⟨(List.cons.inj hd).1, .inr rfl⟩

namespace Comparison

theorem picksOn_of_ofText (h : ofText s = order o name threshold) :
    PicksOn '>' name s ∧ (o = .above ∨ o = .atLeast) ∨
      PicksOn '<' name s ∧ (o = .below ∨ o = .atMost) := by
  rcases exists_picks_or_unreadable s with ⟨front, d, back, rfl, hp⟩ | he
  · rcases hp.ofText_cases with ⟨o', threshold', hc, he⟩ | ⟨-, he⟩
    · cases h.symm.trans he
      rcases Comparator.direction_of_ofText? hc with ⟨rfl, ho⟩ | ⟨rfl, ho⟩
      · exact .inl ⟨⟨front, back, rfl, hp, Text.strips_trim _⟩, ho⟩
      · exact .inr ⟨⟨front, back, rfl, hp, Text.strips_trim _⟩, ho⟩
    · cases h.symm.trans he
  · cases h.symm.trans he

theorem mem_of_picksOn (h : PicksOn d name s) : d ∈ s := by
  obtain ⟨front, back, rfl, -⟩ := h
  exact List.mem_append_right front List.mem_cons_self

theorem not_picksOn_below (h : '>' ∈ s) : ¬ PicksOn '<' name s := by
  rintro ⟨front, back, rfl, hp, -⟩
  cases hp with
  | below hgt => exact hgt h

/-- No comparison but an order on the attribute itself depends on which integer the attribute is. -/
theorem answer_check_insert {c : Comparison}
    (h : ∀ o threshold, c = order o name threshold → o.Carries v w)
    (hc : (c.checkM (a.insert name (.int v))).answer = true) :
    (c.checkM (a.insert name (.int w))).answer = true := by
  cases c with
  | order o other threshold =>
    obtain ⟨n, u, hn, hu, ho⟩ := answer_check_order.1 hc
    apply answer_check_order.2
    rw [Attributes.get?_insert] at hu ⊢
    by_cases he : other = name
    · rw [if_pos he] at hu ⊢
      cases hu
      exact ⟨n, w, hn, rfl, h o threshold (he ▸ rfl) n ho⟩
    · rw [if_neg he] at hu ⊢
      exact ⟨n, u, hn, hu, ho⟩
  | equality other expected =>
    have ht := answer_check_equality.1 hc
    apply answer_check_equality.2
    rw [Attributes.get?_insert] at ht ⊢
    by_cases he : other = name
    · rw [if_pos he] at ht
      cases ht
    · rw [if_neg he] at ht ⊢
      exact ht
  | unreadable condition => cases hc

end Comparison

namespace Tree

theorem evaluate_insert
    (h : ∀ s ∈ t.leaves, ∀ o threshold, Comparison.ofText s = .order o name threshold →
      o.Carries v w)
    (ht : t.evaluate (a.insert name (.int v)) = true) :
    t.evaluate (a.insert name (.int w)) = true := by
  apply evaluate_of_leaves _ ht
  intro s hs
  exact Comparison.answer_check_insert (h s hs)

/-- A rule that holds goes on to hold when an integer attribute is raised, if none of its conditions
asks whether that attribute is below a threshold, and when it is lowered, if none asks whether it is
above one. -/
theorem evaluate_monotone (t : Tree) (name : Text) (a : Attributes) (h : v ≤ w) :
    ((∀ s ∈ t.leaves, ¬ Comparison.PicksOn '<' name s) →
      t.evaluate (a.set name v) = true → t.evaluate (a.set name w) = true) ∧
    ((∀ s ∈ t.leaves, ¬ Comparison.PicksOn '>' name s) →
      t.evaluate (a.set name w) = true → t.evaluate (a.set name v) = true) := by
  apply And.intro
  · intro hno
    apply evaluate_insert
    intro s hs o threshold ho
    rcases Comparison.picksOn_of_ofText ho with ⟨-, ho⟩ | ⟨hp, -⟩
    · exact Order.carries_of_le h ho
    · exact absurd hp (hno s hs)
  · intro hno
    apply evaluate_insert
    intro s hs o threshold ho
    rcases Comparison.picksOn_of_ofText ho with ⟨hp, -⟩ | ⟨-, ho⟩
    · exact absurd hp (hno s hs)
    · exact Order.carries_of_ge h ho

/-- The second condition of the first rule holds `<`, but as a part of the attribute's name. -/
theorem evaluate_monotone_of_three_conditions :
    (5 : Int64) ≤ 9 ∧
    ((∀ s ∈ (and (and (leaf "a >= 5".toList) (leaf "a<b > 1".toList)) (leaf "b < 3".toList)).leaves,
        ¬ Comparison.PicksOn '<' ['a'] s) ∧
      (and (and (leaf "a >= 5".toList) (leaf "a<b > 1".toList)) (leaf "b < 3".toList)).evaluate
        ((Attributes.ofList [("a<b".toList, .int 2), (['b'], .int 2)]).set ['a'] (9 : Int64)) =
          true) ∧
    (∀ s ∈ (leaf "a <= 9".toList).leaves, ¬ Comparison.PicksOn '>' ['a'] s) ∧
    (leaf "a <= 9".toList).evaluate (Attributes.empty.set ['a'] (5 : Int64)) = true := by
  have h : (5 : Int64) ≤ 9 := by decide
  have hbelow : ∀ s ∈ (and (and (leaf "a >= 5".toList) (leaf "a<b > 1".toList))
      (leaf "b < 3".toList)).leaves, ¬ Comparison.PicksOn '<' ['a'] s := by
    have hb : ¬ Comparison.PicksOn '<' ['a'] "b < 3".toList := by
      intro hp
      exact absurd (Comparison.exists_picksOn_iff.1 ⟨_, hp⟩) (by decide)
    exact List.forall_mem_cons.2 ⟨Comparison.not_picksOn_below (by decide), List.forall_mem_cons.2
      ⟨Comparison.not_picksOn_below (by decide), List.forall_mem_singleton.2 hb⟩⟩
  have habove : ∀ s ∈ (leaf "a <= 9".toList).leaves, ¬ Comparison.PicksOn '>' ['a'] s := by
    intro s hs hp
    cases List.mem_singleton.1 hs
    exact absurd (Comparison.mem_of_picksOn hp) (by decide)
  refine ⟨h, ⟨hbelow, ?_⟩, habove, ?_⟩
  · exact (evaluate_monotone _ _ _ h).1 hbelow (by decide)
  · exact (evaluate_monotone _ _ _ h).2 habove (by decide)

end Tree

end Eligibility

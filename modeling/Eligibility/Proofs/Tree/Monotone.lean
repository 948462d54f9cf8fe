import Eligibility.Proofs.Condition.Comparison
import Eligibility.Tree.Evaluate

namespace Eligibility

variable {a b : Attributes} {s : Text} {t : Tree}

/-- What holds has looked one attribute up, and holds wherever that attribute has the same value. -/
theorem Comparison.exists_get?_of_check {c : Comparison} (h : (c.checkM a).answer = true) :
    ∃ name v, a.get? name = some v ∧
      ∀ b : Attributes, b.get? name = some v → (c.checkM b).answer = true := by
  cases c with
  | order o name threshold =>
    obtain ⟨n, v, hn, hv, ho⟩ := answer_check_order.1 h
    exact ⟨name, .int v, hv, fun b hb => answer_check_order.2 ⟨n, v, hn, hb, ho⟩⟩
  | equality name expected =>
    have hv := answer_check_equality.1 h
    exact ⟨name, .text expected, hv, fun b hb => answer_check_equality.2 hb⟩
  | unreadable condition => cases h

theorem evaluateCondition_mono (hab : a.toList ⊆ b.toList) (h : evaluateCondition s a = true) :
    evaluateCondition s b = true := by
  obtain ⟨name, v, hv, hb⟩ := Comparison.exists_get?_of_check h
  apply hb
  rw [Attributes.get?_eq_some_iff] at hv ⊢
  exact hab hv

theorem evaluateCondition_empty (s : Text) : evaluateCondition s .empty = false := by
  rw [← Bool.not_eq_true]
  intro h
  obtain ⟨name, v, hv, _⟩ := Comparison.exists_get?_of_check h
  cases hv

namespace Tree

/-- A rule that holds goes on to hold if each of its conditions does. -/
theorem evaluate_of_leaves
    (h : ∀ s ∈ t.leaves, evaluateCondition s a = true → evaluateCondition s b = true)
    (ht : t.evaluate a = true) : t.evaluate b = true := by
  induction t with
  | leaf s => exact h s (List.mem_singleton_self s) ht
  | join c l r ihl ihr =>
    have hl := ihl fun s hs => h s (List.mem_append_left _ hs)
    have hr := ihr fun s hs => h s (List.mem_append_right _ hs)
    cases c with
    | and =>
      rw [evaluate_join_and, Bool.and_eq_true] at ht ⊢
      exact ⟨hl ht.1, hr ht.2⟩
    | or =>
      rw [evaluate_join_or, Bool.or_eq_true] at ht ⊢
      exact ht.imp hl hr
    | other symbol => cases ht

theorem evaluate_mono (hab : a.toList ⊆ b.toList) (h : t.evaluate a = true) :
    t.evaluate b = true :=
  evaluate_of_leaves (fun _ _ => evaluateCondition_mono hab) h

theorem evaluate_empty (t : Tree) : t.evaluate .empty = false := by
  induction t with
  | leaf s => exact evaluateCondition_empty s
  | join c l r ihl ihr =>
    cases c with
    | and => rw [evaluate_join_and, ihl, Bool.false_and]
    | or => rw [evaluate_join_or, ihl, ihr, Bool.false_or]
    | other symbol => rfl

/-- More attributes never make a rule fail that holds, and with no attributes none holds. -/
theorem evaluate_of_more_attributes (t : Tree) :
    (∀ a b : Attributes, a.toList ⊆ b.toList → t.evaluate a = true → t.evaluate b = true) ∧
    t.evaluate .empty = false :=
  ⟨fun _ _ => evaluate_mono, evaluate_empty t⟩

theorem evaluate_of_second_attribute :
    (Attributes.empty.insert ['a'] (.int 2)).toList ⊆
      ((Attributes.empty.insert ['a'] (.int 2)).insert ['b'] (.text ['x'])).toList ∧
    (or (join (.other ['X']) (leaf "b = 'x'".toList) (leaf "no rule".toList))
      (and (leaf "a >= 2".toList) (leaf "a<3".toList))).evaluate
        (Attributes.empty.insert ['a'] (.int 2)) = true ∧
    (or (join (.other ['X']) (leaf "b = 'x'".toList) (leaf "no rule".toList))
      (and (leaf "a >= 2".toList) (leaf "a<3".toList))).evaluate
        ((Attributes.empty.insert ['a'] (.int 2)).insert ['b'] (.text ['x'])) = true := by
  have hab : (Attributes.empty.insert ['a'] (.int 2)).toList ⊆
      ((Attributes.empty.insert ['a'] (.int 2)).insert ['b'] (.text ['x'])).toList := by decide
  have ha : (or (join (.other ['X']) (leaf "b = 'x'".toList) (leaf "no rule".toList))
      (and (leaf "a >= 2".toList) (leaf "a<3".toList))).evaluate
        (Attributes.empty.insert ['a'] (.int 2)) = true := by decide
  exact ⟨hab, ha, (evaluate_of_more_attributes _).1 _ _ hab ha⟩

end Tree

end Eligibility

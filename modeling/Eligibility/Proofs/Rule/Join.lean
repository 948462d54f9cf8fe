import Eligibility.Proofs.Rule.Depth
import Eligibility.Proofs.Rule.Operand

namespace Eligibility.Rule

variable {s t x y : Text}

theorem not_and_infix_or (hs : ¬ Connective.and.spaced <:+: s)
    (hs' : ¬ ' ' :: Connective.and.symbol <:+ s) (ht : ¬ Connective.and.spaced <:+: t)
    (h : ¬ ['A', 'N', 'D', ' '] <+: t) :
    ¬ Connective.and.spaced <:+: s ++ Connective.or.spaced ++ t := by
  rw [Connective.spaced, Connective.spaced, Text.spaced_infix_join_iff (by decide)]
  rintro ((h' | h') | h' | h' | h')
  · exact hs' h'
  · exact hs h'
  · exact absurd h' (by decide)
  · exact h h'
  · exact ht h'

/-- No `AND` arises at the seam of two operands joined by `OR` unless the second one begins with
the word. -/
theorem not_and_infix_join (hs : parse s = .ok (.leaf s)) (ht : parse t = .ok (.leaf t))
    (h : ¬ ['A', 'N', 'D', ' '] <+: t) :
    ¬ Connective.and.spaced <:+: s ++ Connective.or.spaced ++ t := by
  obtain ⟨hcs, has, _⟩ := operand_iff.1 hs
  obtain ⟨_, hat, _⟩ := operand_iff.1 ht
  exact not_and_infix_or has (not_and_suffix_of_isCondition hcs) hat h

theorem trim_join (hs : parse s = .ok (.leaf s)) (ht : parse t = .ok (.leaf t)) (m : Text) :
    Text.trim (s ++ m ++ t) = s ++ m ++ t := by
  have h := trim_join_of_parse hs ht m
  rwa [(parse_eq_ok_leaf_iff.1 hs).1, (parse_eq_ok_leaf_iff.1 ht).1] at h

theorem parse_or (hs : parse s = .ok (.leaf s)) (ht : parse t = .ok (.leaf t))
    (h : ¬ ['A', 'N', 'D', ' '] <+: t) :
    parse (s ++ Connective.or.spaced ++ t) = .ok (.join .or (.leaf s) (.leaf t)) := by
  obtain ⟨_, hcs, _, hos⟩ := parse_eq_ok_leaf_iff.1 hs
  obtain ⟨_, _, _, hot⟩ := parse_eq_ok_leaf_iff.1 ht
  exact parse_join_or (trim_join hs ht _) (not_and_infix_join hs ht h) hos
    (not_or_suffix_of_isCondition hcs) hot hs ht

theorem not_and_infix_loose (hs : parse s = .ok (.leaf s)) :
    ¬ Connective.and.spaced <:+: s ++ [' ', 'O', 'R'] := by
  obtain ⟨_, hcs, has, _⟩ := parse_eq_ok_leaf_iff.1 hs
  exact Text.not_spaced_infix_append (by decide) has (not_and_suffix_of_isCondition hcs)
    (by decide)

theorem not_and_suffix_loose : ¬ ' ' :: Connective.and.symbol <:+ s ++ [' ', 'O', 'R'] := by
  rintro ⟨z, hz⟩
  have hlast := congrArg List.getLast? hz
  simp [Connective.symbol] at hlast

/-- The first operand with the `OR` after it is no rule. -/
theorem parse_loose_or (hs : parse s = .ok (.leaf s)) :
    parse (s ++ [' ', 'O', 'R']) = .error (.invalidRule (s ++ [' ', 'O', 'R'])) := by
  obtain ⟨_, hcs, _, hos⟩ := parse_eq_ok_leaf_iff.1 hs
  have hassoc : s ++ [' ', 'O'] ++ ['R'] = s ++ [' ', 'O', 'R'] := List.append_assoc ..
  have hr : Text.Trimmed ['R'] := by
    constructor <;> intro c hc <;> cases hc <;> rfl
  have htrim : Text.trim (s ++ [' ', 'O', 'R']) = s ++ [' ', 'O', 'R'] := by
    rw [← hassoc]
    exact ((trimmed_of_isCondition hcs).join (ne_nil_of_isCondition hcs) hr
      (List.cons_ne_nil _ _) _).trim_eq
  have ho : ¬ Connective.or.spaced <:+: s ++ [' ', 'O', 'R'] :=
    Text.not_spaced_infix_append (by decide) hos (not_or_suffix_of_isCondition hcs) (by decide)
  have hc : isCondition (s ++ [' ', 'O', 'R']) = false := by
    rw [← hassoc]
    exact isCondition_concat rfl
  have hsplit : split? (Text.trim (s ++ [' ', 'O', 'R'])) = none := by
    rw [htrim]
    exact split?_eq_none (not_and_infix_loose hs) ho
  rw [parse_eq_leaf hsplit, htrim, hc]
  rfl

theorem parse_or_error (hs : parse s = .ok (.leaf s)) (ht : parse t = .ok (.leaf t))
    (h : ['A', 'N', 'D', ' '] <+: t) : parse (s ++ Connective.or.spaced ++ t) =
      .error (.invalidRule (s ++ [' ', 'O', 'R'])) := by
  obtain ⟨_, _, hat, _⟩ := parse_eq_ok_leaf_iff.1 ht
  have htrim := trim_join hs ht Connective.or.spaced
  obtain ⟨r, rfl⟩ := h
  have he : s ++ Connective.or.spaced ++ (['A', 'N', 'D', ' '] ++ r) =
      s ++ [' ', 'O', 'R'] ++ Connective.and.spaced ++ r := by
    simp only [Connective.spaced, Text.spaced, Connective.symbol, List.append_assoc,
      List.cons_append, List.nil_append]
  have hr : ¬ Connective.and.spaced <:+: r :=
    fun hr => hat (hr.trans (List.suffix_append _ r).isInfix)
  have hsplit : split? (Text.trim (s ++ Connective.or.spaced ++ (['A', 'N', 'D', ' '] ++ r))) =
      some (.and, s ++ [' ', 'O', 'R'], r) := by
    rw [htrim, he]
    exact split?_eq_and
      (Text.firstTwo?_spaced (by decide) (not_and_infix_loose hs) not_and_suffix_loose hr)
  rw [parse_eq_bind hsplit, parse_loose_or hs]
  rfl

/-- Two operands joined by `OR` are read as their disjunction, unless the second one begins with
the word `AND` and a space: then the text is no rule. -/
theorem parse_or_join_iff (hs : parse s = .ok (.leaf s)) (ht : parse t = .ok (.leaf t)) :
    ((∃ u, parse (s ++ Connective.or.spaced ++ t) = .ok u ∧ ∀ a,
        u.evaluate a = ((Tree.leaf s).evaluate a || (Tree.leaf t).evaluate a)) ↔
      ¬ ['A', 'N', 'D', ' '] <+: t) ∧
    (['A', 'N', 'D', ' '] <+: t → parse (s ++ Connective.or.spaced ++ t) =
      .error (.invalidRule (s ++ [' ', 'O', 'R']))) := by
  refine ⟨⟨?_, fun h => ?_⟩, parse_or_error hs ht⟩
  · rintro ⟨u, hu, _⟩ h
    rw [parse_or_error hs ht h] at hu
    cases hu
  · exact ⟨_, parse_or hs ht h, Tree.evaluate_join_or _ _⟩

theorem parse_or_join_sample :
    (parse ['a', '>', '1'] = .ok (.leaf ['a', '>', '1']) ∧
      parse ['b', '>', '2'] = .ok (.leaf ['b', '>', '2'])) ∧
    ∃ u, parse (['a', '>', '1'] ++ Connective.or.spaced ++ ['b', '>', '2']) = .ok u ∧ ∀ a,
      u.evaluate a =
        ((Tree.leaf ['a', '>', '1']).evaluate a || (Tree.leaf ['b', '>', '2']).evaluate a) := by
  have ha : parse ['a', '>', '1'] = .ok (.leaf ['a', '>', '1']) :=
    parse_eq_ok_leaf_iff.2 ⟨by decide, by decide, by decide, by decide⟩
  have hb : parse ['b', '>', '2'] = .ok (.leaf ['b', '>', '2']) :=
    parse_eq_ok_leaf_iff.2 ⟨by decide, by decide, by decide, by decide⟩
  exact ⟨⟨ha, hb⟩, (parse_or_join_iff ha hb).1.2 (by decide)⟩

theorem exists_operands_not_or :
    ∃ s t : Text, parse s = .ok (.leaf s) ∧ parse t = .ok (.leaf t) ∧
      ∀ u, parse (s ++ Connective.or.spaced ++ t) ≠ .ok u := by
  have hs : parse ['a', '>', '1'] = .ok (.leaf ['a', '>', '1']) :=
    parse_eq_ok_leaf_iff.2 ⟨by decide, by decide, by decide, by decide⟩
  have ht : parse ['A', 'N', 'D', ' ', '>', '1'] = .ok (.leaf ['A', 'N', 'D', ' ', '>', '1']) :=
    parse_eq_ok_leaf_iff.2 ⟨by decide, by decide, by decide, by decide⟩
  refine ⟨_, _, hs, ht, fun u hu => ?_⟩
  rw [parse_or_error hs ht (by decide)] at hu
  cases hu

end Eligibility.Rule

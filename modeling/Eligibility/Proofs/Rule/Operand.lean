import Eligibility.Proofs.Condition.Grammar
import Eligibility.Proofs.Rule.Split
import Eligibility.Tree.Evaluate

namespace Eligibility.Rule

variable {s t x : Text} {d : Char}

/-- A text is read as one operand exactly if it is a condition in which no connective stands. -/
theorem parse_eq_ok_leaf_iff : parse s = .ok (.leaf t) ↔ s.trim = t ∧ isCondition t = true ∧
    ¬ Connective.and.spaced <:+: t ∧ ¬ Connective.or.spaced <:+: t := by
  constructor
  · intro h
    have hjoin : ∀ c left right, split? s.trim = some (c, left, right) → False := by
      intro c left right hs
      obtain ⟨l, r, hu, _⟩ := exists_parts_of_parse hs h
      cases hu
    rcases split?_cases s.trim with ⟨_, _, _, hs⟩ | ⟨_, _, _, _, hs⟩ | ⟨ha, ho, hs⟩
    · exact (hjoin _ _ _ hs).elim
    · exact (hjoin _ _ _ hs).elim
    · rw [parse_eq_leaf hs] at h
      split at h
      case isTrue hc =>
        cases h
        exact ⟨rfl, hc, ha, ho⟩
      case isFalse => cases h
  · rintro ⟨rfl, hc, ha, ho⟩
    rw [parse_eq_leaf (split?_eq_none ha ho), if_pos hc]

theorem trimmed_of_isCondition (h : isCondition t = true) : t.Trimmed := by
  obtain ⟨c, hc, rfl⟩ := isCondition_iff.1 h
  exact Condition.trimmed_text hc

theorem ne_nil_of_isCondition (h : isCondition t = true) : t ≠ [] := by
  obtain ⟨c, hc, rfl⟩ := isCondition_iff.1 h
  obtain ⟨d, hd, _⟩ := Condition.text_head? hc
  rintro he
  rw [he] at hd
  cases hd

theorem digit_or_quote_of_isCondition (h : isCondition (x ++ [d]) = true) :
    d.isDigit = true ∨ d = '\'' := by
  obtain ⟨c, hc, he⟩ := isCondition_iff.1 h
  obtain ⟨e, hlast, hl⟩ := Condition.text_getLast? hc
  rw [he, List.getLast?_concat] at hlast
  cases hlast
  exact hl

/-- A condition does not end in a letter, and so in no connective. -/
theorem not_suffix_of_isCondition (h : isCondition t = true) (hd : Condition.isLetter d = true) :
    ¬ x ++ [d] <:+ t := by
  rintro ⟨y, rfl⟩
  rw [← List.append_assoc] at h
  rcases digit_or_quote_of_isCondition h with hl | rfl
  · rw [Condition.isLetter_iff] at hd
    rw [Condition.isDigit_iff] at hl
    omega
  · cases hd

theorem not_suffix_append_of_isCondition (h : isCondition t = true)
    (hd : Condition.isLetter d = true) : ¬ x ++ [d] <:+ s ++ t := by
  intro hs
  have hlast : [d] <:+ t := by
    apply List.suffix_of_suffix_length_le ((List.suffix_append x [d]).trans hs)
      (List.suffix_append s t)
    exact List.length_pos_iff.2 (ne_nil_of_isCondition h)
  exact not_suffix_of_isCondition (x := []) h hd hlast

theorem not_and_suffix_of_isCondition (h : isCondition t = true) :
    ¬ ' ' :: Connective.and.symbol <:+ t := not_suffix_of_isCondition (x := [' ', 'A', 'N']) h rfl

theorem not_or_suffix_of_isCondition (h : isCondition t = true) :
    ¬ ' ' :: Connective.or.symbol <:+ t := not_suffix_of_isCondition (x := [' ', 'O']) h rfl

theorem isCondition_concat (hd : Condition.isLetter d = true) : isCondition (x ++ [d]) = false := by
  rw [← Bool.not_eq_true]
  exact fun h => not_suffix_of_isCondition h hd List.suffix_rfl

theorem operand_iff : parse t = .ok (.leaf t) ↔ isCondition t = true ∧
    ¬ Connective.and.spaced <:+: t ∧ ¬ Connective.or.spaced <:+: t := by
  rw [parse_eq_ok_leaf_iff]
  apply Iff.intro
  · exact And.right
  · intro h
    exact ⟨(trimmed_of_isCondition h.1).trim_eq, h⟩

/-- To be a condition is to be read as one operand, except for the conditions in whose literal a
connective stands. -/
theorem isCondition_iff_parse_iff (t : Text) :
    (isCondition t = true ↔ parse t = .ok (.leaf t)) ↔
      ¬ (isCondition t = true ∧ (Connective.and.spaced <:+: t ∨ Connective.or.spaced <:+: t)) := by
  rw [parse_eq_ok_leaf_iff, ← not_or]
  constructor
  · rintro h ⟨hc, hm⟩
    exact (h.1 hc).2.2 hm
  · intro h
    refine ⟨fun hc => ?_, fun hp => hp.2.1⟩
    exact ⟨(trimmed_of_isCondition hc).trim_eq, hc, fun hm => h ⟨hc, hm⟩⟩

theorem exists_condition_not_operand :
    ∃ t : Text, t.trim = t ∧ isCondition t = true ∧ parse t ≠ .ok (.leaf t) := by
  refine ⟨['a', '=', '\'', 'x', '\'', ' ', 'A', 'N', 'D', ' ', 'b', '=', '\'', 'y', '\''],
    by decide, by decide, fun h => ?_⟩
  exact (parse_eq_ok_leaf_iff.1 h).2.2.1 (by decide)

end Eligibility.Rule

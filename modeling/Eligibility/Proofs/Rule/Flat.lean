import Eligibility.Proofs.Rule.Depth
import Eligibility.Proofs.Rule.Join
import Eligibility.Proofs.Rule.Shape
import Eligibility.Tree.Display

namespace Eligibility

namespace Tree

/-- The operands that stand on the right of an `OR`. -/
def orRights : Tree → List Text
  | leaf _ => []
  | join .or l (leaf v) => l.orRights ++ [v]
  | join _ l r => l.orRights ++ r.orRights

@[simp] theorem orRights_join_and (l r : Tree) :
    (join .and l r).orRights = l.orRights ++ r.orRights := by
  cases r <;> rfl

theorem flat_join (c : Connective) (l r : Tree) :
    (join c l r).flat = l.flat ++ c.spaced ++ r.flat := by
  simp only [flat, Connective.spaced, Text.spaced, List.append_assoc, List.cons_append,
    List.nil_append]

end Tree

namespace Rule

variable {s t x y : Text} {u l r : Tree}

/-- The text begins with an operand and a loose `OR`, and its first `AND` comes right behind. -/
def LooseOr (t : Text) : Prop := ∃ v rest, parse v = .ok (.leaf v) ∧
  t = v ++ [' ', 'O', 'R'] ++ Connective.and.spaced ++ rest

theorem LooseOr.append (h : LooseOr t) (x : Text) : LooseOr (t ++ x) := by
  obtain ⟨v, rest, hv, rfl⟩ := h
  exact ⟨v, rest ++ x, hv, List.append_assoc ..⟩

theorem LooseOr.exists_cut? (h : LooseOr t) : ∃ first rest e,
    t.cut? Connective.and.spaced = some (first, rest) ∧ parse first = .error e := by
  obtain ⟨v, rest, hv, rfl⟩ := h
  refine ⟨v ++ [' ', 'O', 'R'], rest, _, ?_, parse_loose_or hv⟩
  exact Text.cut?_spaced (by decide) (not_and_infix_loose hv) not_and_suffix_loose

theorem LooseOr.parse_error (h : LooseOr t) (ht : Text.trim t = t) : ∃ e, parse t = .error e := by
  obtain ⟨first, rest, e, hc, he⟩ := h.exists_cut?
  obtain ⟨second, -, hf⟩ := Text.exists_firstTwo?_of_cut? hc
  rw [← ht] at hf
  rw [parse_eq_bind (split?_eq_and hf), he]
  exact ⟨e, rfl⟩

/-- Behind the first `AND` a loose `OR` is as wrong as in front of it. -/
theorem LooseOr.parse_error_right (h : LooseOr y)
    (hc : t.cut? Connective.and.spaced = some (x, y)) (hl : parse x = .ok l)
    (ht : Text.trim t = t) : ∃ e, parse t = .error e := by
  obtain ⟨second, rest, e, hc', he⟩ := h.exists_cut?
  have hf := Text.firstTwo?_of_cut? hc hc'
  rw [← ht] at hf
  rw [parse_eq_bind (split?_eq_and hf), hl, he]
  exact ⟨e, rfl⟩

namespace Disjunct

theorem exists_first (h : Disjunct u) :
    ∃ v rest, parse v = .ok (.leaf v) ∧ u.flat = v ++ rest := by
  cases h with
  | @leaf v hv => exact ⟨v, [], hv, (List.append_nil v).symm⟩
  | @or v w hv hw =>
    rw [Tree.flat_join, List.append_assoc]
    exact ⟨v, _, hv, rfl⟩

theorem exists_last (h : Disjunct u) :
    ∃ front w, parse w = .ok (.leaf w) ∧ u.flat = front ++ w := by
  cases h with
  | @leaf v hv => exact ⟨[], v, hv, rfl⟩
  | @or v w hv hw =>
    rw [Tree.flat_join]
    exact ⟨_, w, hw, rfl⟩

theorem trim_flat (h : Disjunct u) : u.flat.trim = u.flat := by
  cases h with
  | leaf hv => exact (parse_eq_ok_leaf_iff.1 hv).1
  | or hv hw =>
    rw [Tree.flat_join]
    exact trim_join hv hw _

theorem trim_flat_and (hl : Disjunct l) (hr : Disjunct r) :
    Text.trim (l.flat ++ Connective.and.spaced ++ r.flat) =
      l.flat ++ Connective.and.spaced ++ r.flat := by
  obtain ⟨v, rest, hv, hvl⟩ := hl.exists_first
  obtain ⟨front, w, hw, hwr⟩ := hr.exists_last
  have he : l.flat ++ Connective.and.spaced ++ r.flat =
      v ++ (rest ++ Connective.and.spaced ++ front) ++ w := by
    simp only [hvl, hwr, List.append_assoc]
  rw [he]
  exact trim_join hv hw _

theorem not_and_suffix_flat (h : Disjunct u) : ¬ ' ' :: Connective.and.symbol <:+ u.flat := by
  obtain ⟨front, w, hw, he⟩ := h.exists_last
  rw [he]
  exact not_suffix_append_of_isCondition (x := [' ', 'A', 'N']) (parse_eq_ok_leaf_iff.1 hw).2.1 rfl

theorem not_and_infix_flat (h : Disjunct u) (hs : ∀ v ∈ u.orRights, ¬ ['A', 'N', 'D', ' '] <+: v) :
    ¬ Connective.and.spaced <:+: u.flat := by
  cases h with
  | leaf hv => exact (parse_eq_ok_leaf_iff.1 hv).2.2.1
  | @or v w hv hw =>
    rw [Tree.flat_join]
    exact not_and_infix_join hv hw (hs w (List.mem_singleton_self w))

theorem parse_flat (h : Disjunct u) (hs : ∀ v ∈ u.orRights, ¬ ['A', 'N', 'D', ' '] <+: v) :
    parse u.flat = .ok u := by
  cases h with
  | leaf hv => exact hv
  | @or v w hv hw =>
    rw [Tree.flat_join]
    exact parse_or hv hw (hs w (List.mem_singleton_self w))

theorem looseOr_flat (h : Disjunct u) (hs : ∃ v ∈ u.orRights, ['A', 'N', 'D', ' '] <+: v) :
    LooseOr u.flat := by
  obtain ⟨w, hm, rest, rfl⟩ := hs
  cases h with
  | leaf => cases hm
  | @or v _ hv _ =>
    cases List.mem_singleton.1 hm
    refine ⟨v, rest, hv, ?_⟩
    simp only [Tree.flat, Connective.spaced, Text.spaced, Connective.symbol, List.append_assoc,
      List.cons_append, List.nil_append]

end Disjunct

theorem Shape.parse_flat (h : Shape u) (hs : ∀ v ∈ u.orRights, ¬ ['A', 'N', 'D', ' '] <+: v) :
    parse u.flat = .ok u := by
  cases h with
  | disjunct h => exact h.parse_flat hs
  | @and l r hl hr =>
    rw [Tree.orRights_join_and, List.forall_mem_append] at hs
    rw [Tree.flat_join]
    exact parse_join_and (hl.trim_flat_and hr) (hl.not_and_infix_flat hs.1) hl.not_and_suffix_flat
      (hr.not_and_infix_flat hs.2) (hl.parse_flat hs.1) (hr.parse_flat hs.2)

theorem Shape.parse_flat_error (h : Shape u)
    (hs : ∃ v ∈ u.orRights, ['A', 'N', 'D', ' '] <+: v) : ∃ e, parse u.flat = .error e := by
  cases h with
  | disjunct h => exact (h.looseOr_flat hs).parse_error h.trim_flat
  | @and l r hl hr =>
    have ht := hl.trim_flat_and hr
    rw [Tree.flat_join]
    by_cases hsl : ∃ v ∈ l.orRights, ['A', 'N', 'D', ' '] <+: v
    · apply LooseOr.parse_error ?_ ht
      rw [List.append_assoc]
      exact (hl.looseOr_flat hsl).append _
    · have hl' : ∀ v ∈ l.orRights, ¬ ['A', 'N', 'D', ' '] <+: v :=
        fun v hv hp => hsl ⟨v, hv, hp⟩
      have hsr : ∃ v ∈ r.orRights, ['A', 'N', 'D', ' '] <+: v := by
        obtain ⟨v, hv, hp⟩ := hs
        rw [Tree.orRights_join_and, List.mem_append] at hv
        exact ⟨v, hv.resolve_left fun h => hl' v h hp, hp⟩
      have hc := Text.cut?_spaced (b := r.flat) (by decide) (hl.not_and_infix_flat hl')
        hl.not_and_suffix_flat
      exact (hr.looseOr_flat hsr).parse_error_right hc (hl.parse_flat hl') ht

/-- A rule written without parentheses is read back as it was, unless an operand behind an `OR`
begins with the word `AND` and a space; then the text is no rule at all. -/
theorem parse_flat_of_parse (h : parse s = .ok u) :
    ((∀ v ∈ u.orRights, ¬ ['A', 'N', 'D', ' '] <+: v) → parse u.flat = .ok u) ∧
    ((∃ v ∈ u.orRights, ['A', 'N', 'D', ' '] <+: v) → ∃ e, parse u.flat = .error e) :=
  ⟨(shape_of_parse h).parse_flat, (shape_of_parse h).parse_flat_error⟩

theorem parse_flat_and_in_or :
    (parse "a > 1 AND AND > 2 OR b > 3 OR c".toList = .ok (.and (.leaf "a > 1".toList)
        (.or (.leaf "AND > 2".toList) (.leaf "b > 3".toList))) ∧
      parse "a > 1 AND AND > 2 OR b > 3".toList = .ok (.and (.leaf "a > 1".toList)
        (.or (.leaf "AND > 2".toList) (.leaf "b > 3".toList)))) ∧
    parse "a > 1 OR \tAND > 2 AND b > 3".toList = .ok (.and
        (.or (.leaf "a > 1".toList) (.leaf "AND > 2".toList)) (.leaf "b > 3".toList)) ∧
      ∃ e, parse "a > 1 OR AND > 2 AND b > 3".toList = .error e := by
  have hl : parse "a > 1 AND AND > 2 OR b > 3 OR c".toList = .ok (.and (.leaf "a > 1".toList)
      (.or (.leaf "AND > 2".toList) (.leaf "b > 3".toList))) :=
    parse_eq_ok_of_parseWithin (by decide)
  have hr : parse "a > 1 OR \tAND > 2 AND b > 3".toList = .ok (.and
      (.or (.leaf "a > 1".toList) (.leaf "AND > 2".toList)) (.leaf "b > 3".toList)) :=
    parse_eq_ok_of_parseWithin (by decide)
  exact ⟨⟨hl, (parse_flat_of_parse hl).1 (by decide)⟩, hr, (parse_flat_of_parse hr).2 (by decide)⟩

end Rule

end Eligibility

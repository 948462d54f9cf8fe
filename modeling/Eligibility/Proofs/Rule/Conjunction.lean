import Eligibility.Proofs.Rule.Operand
import Eligibility.Proofs.Rule.Spine

namespace Eligibility.Rule

variable {name s t v : Text} {d : Char} {l r u : Tree}

/-- The text of a rule begins with a condition. -/
theorem exists_isPrefix_of_parse (h : parse s = .ok u) :
    ∃ v, isCondition v = true ∧ v <+: s.trim := by
  induction u generalizing s with
  | leaf t =>
    obtain ⟨rfl, hc, -⟩ := parse_eq_ok_leaf_iff.1 h
    exact ⟨s.trim, hc, List.prefix_rfl⟩
  | join c l r ihl _ =>
    obtain ⟨left, right, hf, hl, -⟩ := exists_firstTwo?_of_parse h
    obtain ⟨v, hv, hp⟩ := ihl hl
    obtain ⟨rest, hc, -⟩ := Text.exists_cut?_of_firstTwo? hf
    have hleft : left <+: s.trim := by
      rw [Text.append_of_cut? hc, List.append_assoc]
      exact List.prefix_append _ _
    exact ⟨v, hv, hp.trans (Text.trim_isPrefix hleft s.trimmed_trim.1)⟩

theorem exists_letter_of_parse (h : parse s = .ok u) :
    ∃ d rest, s.trim = d :: rest ∧ Condition.isLetter d = true := by
  obtain ⟨v, hv, rest, hrest⟩ := exists_isPrefix_of_parse h
  obtain ⟨c, hc, rfl⟩ := isCondition_iff.1 hv
  obtain ⟨d, hd, hl⟩ := Condition.text_head? hc
  obtain ⟨w, hw⟩ := List.head?_eq_some_iff.1 hd
  rw [hw] at hrest
  exact ⟨d, w ++ rest, hrest.symm, hl⟩

/-- No condition begins with two words. -/
theorem isCondition_two_words (hn : name.all Condition.isLetter = true)
    (hd : Condition.isLetter d = true) (t : Text) :
    isCondition (name ++ ' ' :: d :: t) = false := by
  have hspace : Condition.isSpace d = false :=
    Condition.isSpace_of_not_isBlank (Condition.isBlank_of_isLetter hd)
  have hname : ∀ e, (' ' :: d :: t).head? = some e → Condition.isLetter e = false := by
    intro e he
    cases he
    rfl
  have hgap : (' ' :: d :: t).dropWhile Condition.isSpace = d :: t := by
    apply Text.dropWhile_stop (a := [' ']) rfl
    intro e he
    cases he
    exact hspace
  have hcomparator : Comparator.ofText? (d :: t) = none := by
    cases hc : Comparator.ofText? (d :: t) with
    | none => rfl
    | some p =>
      obtain ⟨e, he, hl, -⟩ := Condition.symbol_head? p.1 p.2
      rw [← Comparator.append_of_ofText? hc] at he
      cases he
      rw [hd] at hl
      cases hl
  rw [isCondition, Condition.ofText?, Text.dropWhile_stop hn hname, hgap, hcomparator]
  rfl

theorem not_isPrefix_two_words (hv : isCondition v = true)
    (hn : name.all Condition.isLetter = true) (hd : Condition.isLetter d = true) :
    ¬ v <+: name ++ ' ' :: d :: t := by
  intro hp
  have hwords : name ++ [' ', d] <+: name ++ ' ' :: d :: t :=
    (List.prefix_append_right_inj name).2 ⟨t, rfl⟩
  rcases List.prefix_or_prefix_of_prefix hp hwords with h | h
  · -- A condition ends neither in a letter nor in a space.
    rcases List.eq_nil_or_concat' v with rfl | ⟨x, e, rfl⟩
    · exact ne_nil_of_isCondition hv rfl
    · have he : e ∈ name ++ [' ', d] := h.subset (List.mem_append_right x List.mem_cons_self)
      rcases List.mem_append.1 he with he | he
      · exact not_suffix_of_isCondition hv (List.all_eq_true.1 hn e he) List.suffix_rfl
      · rcases List.mem_pair.1 he with rfl | rfl
        · cases (trimmed_of_isCondition hv).2 ' ' List.getLast?_concat
        · exact not_suffix_of_isCondition hv hd List.suffix_rfl
  · obtain ⟨rest, rfl⟩ := h
    have he : name ++ [' ', d] ++ rest = name ++ ' ' :: d :: rest := List.append_assoc ..
    rw [he, isCondition_two_words hn hd] at hv
    cases hv

/-- With an `AND` at the end of the first text, the one between the two texts begins the second
part, and no rule begins so. -/
theorem parse_and_error (ht : parse t = .ok r)
    (htrim : Text.trim (s ++ Connective.and.spaced ++ t.trim) =
      s ++ Connective.and.spaced ++ t.trim)
    (ha : ¬ Connective.and.spaced <:+: s) (hs : ' ' :: Connective.and.symbol <:+ s) :
    ∃ e, parse (s ++ Connective.and.spaced ++ t.trim) = .error e := by
  obtain ⟨z, rfl⟩ := hs
  have he : z ++ ' ' :: Connective.and.symbol ++ Connective.and.spaced ++ t.trim =
      z ++ Connective.and.spaced ++ (Connective.and.symbol ++ ' ' :: t.trim) := by
    simp only [Connective.spaced, Text.spaced, List.append_assoc, List.cons_append, List.nil_append]
  rw [he] at htrim ⊢
  have hcut : Text.cut? (z ++ Connective.and.spaced ++ (Connective.and.symbol ++ ' ' :: t.trim))
      Connective.and.spaced = some (z, Connective.and.symbol ++ ' ' :: t.trim) :=
    Text.cut?_append ha
  obtain ⟨second, hp, hf⟩ := Text.exists_firstTwo?_of_cut? hcut
  rw [← htrim] at hf
  rw [parse_eq_bind (split?_eq_and hf)]
  obtain ⟨d, rest, hd, hl⟩ := exists_letter_of_parse ht
  have hblank : ∀ c, (Connective.and.symbol ++ ' ' :: t.trim).head? = some c →
      Text.isBlank c = false := by
    intro c hc
    cases hc
    rfl
  cases hsecond : parse second with
  | ok w =>
    obtain ⟨v, hv, hvp⟩ := exists_isPrefix_of_parse hsecond
    have hvt := hvp.trans (Text.trim_isPrefix hp hblank)
    rw [hd] at hvt
    exact (not_isPrefix_two_words hv rfl hl hvt).elim
  | error e =>
    cases parse z with
    | ok w => exact ⟨e, rfl⟩
    | error e' => exact ⟨e', rfl⟩

/-- Texts that hold no connective between spaces are joined by `AND`. -/
theorem combine_of_not_or (hs : parse s = .ok l) (ht : parse t = .ok r)
    (hos : ¬ Connective.or.spaced <:+: s) (hot : ¬ Connective.or.spaced <:+: t) :
    combine [s, t] = .ok (.join .and l r) := by
  have hc : chooseConnective [s, t] = .and := by
    rw [chooseConnective_eq_and_iff, List.countP_eq_zero.2]
    · exact Nat.zero_le _
    · intro x hx
      rw [decide_eq_true_iff]
      rcases List.mem_pair.1 hx with rfl | rfl
      · exact hos
      · exact hot
  have h : combine [s, t] = .ok (joinAll (chooseConnective [s, t]) [l, r]) := by
    apply combine_eq_ok
    rw [List.map_cons, List.map_cons, hs, ht]
    rfl
  rw [h, hc]
  rfl

/-- Two rules whose texts hold no `AND` are read as their conjunction where an `AND` is written
between them, and combining the two gives the same tree if their texts hold no `OR` either. Only an
`AND` that ends the first text stands in the way: then the two texts together are no rule. -/
theorem parse_and_join (hs : parse s = .ok l) (ht : parse t = .ok r)
    (has : ¬ Connective.and.spaced <:+: s.trim) (hat : ¬ Connective.and.spaced <:+: t.trim) :
    (¬ ' ' :: Connective.and.symbol <:+ s.trim →
      parse (s.trim ++ Connective.and.spaced ++ t.trim) = .ok (l.and r) ∧
      (∀ a, (l.and r).evaluate a = (l.evaluate a && r.evaluate a)) ∧
      (¬ Connective.or.spaced <:+: s.trim → ¬ Connective.or.spaced <:+: t.trim →
        combine [s.trim, t.trim] = .ok (l.and r))) ∧
    (' ' :: Connective.and.symbol <:+ s.trim →
      ∃ e, parse (s.trim ++ Connective.and.spaced ++ t.trim) = .error e) := by
  have htrim := trim_join_of_parse hs ht Connective.and.spaced
  apply And.intro
  · intro hend
    rw [← parse_trim] at hs ht
    refine ⟨parse_join_and htrim has hend hat hs ht, Tree.evaluate_join_and l r, ?_⟩
    exact combine_of_not_or hs ht
  · exact parse_and_error ht htrim has

theorem parse_and_join_names :
    (parse " OR > 1".toList = .ok (.leaf "OR > 1".toList) ∧
      parse "AND = 2\n".toList = .ok (.leaf "AND = 2".toList)) ∧
    parse "OR > 1 AND AND = 2".toList =
      .ok (.and (.leaf "OR > 1".toList) (.leaf "AND = 2".toList)) ∧
    combine ["OR > 1".toList, "AND = 2".toList] =
      .ok (.and (.leaf "OR > 1".toList) (.leaf "AND = 2".toList)) := by
  have hs : parse " OR > 1".toList = .ok (.leaf "OR > 1".toList) :=
    parse_eq_ok_of_parseWithin (by decide)
  have ht : parse "AND = 2\n".toList = .ok (.leaf "AND = 2".toList) :=
    parse_eq_ok_of_parseWithin (by decide)
  obtain ⟨hp, -, hc⟩ := (parse_and_join hs ht (by decide) (by decide)).1 (by decide)
  exact ⟨⟨hs, ht⟩, hp, hc (by decide) (by decide)⟩

end Eligibility.Rule

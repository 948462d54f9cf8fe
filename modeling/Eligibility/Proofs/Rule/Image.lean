import Eligibility.Proofs.Rule.Depth
import Eligibility.Proofs.Rule.Join
import Eligibility.Proofs.Rule.Shape

namespace Eligibility

namespace Tree

/-- One leaf, or two that `OR` joins. -/
def isDisjunct : Tree → Bool
  | leaf _ => true
  | join .or (leaf _) (leaf _) => true
  | _ => false

/-- A disjunct, or two that `AND` joins. -/
def isLayered : Tree → Bool
  | join .and l r => l.isDisjunct && r.isDisjunct
  | t => t.isDisjunct

/-- The connectives of a tree, that of the root first. -/
def connectives : Tree → List Connective
  | leaf _ => []
  | join c l r => c :: (l.connectives ++ r.connectives)

/-- A text of the tree without parentheses. The tab behind a connective keeps the name at the start
of an operand, which may be that of a connective, from standing between two spaces. -/
def padded : Tree → Text
  | leaf t => t
  | join c l r => l.padded ++ c.spaced ++ '\t' :: r.padded

end Tree

namespace Rule

variable {s t v w : Text} {c : Connective} {u : Tree}

/-- A text that can stand in front of an `AND`: neither in it nor where it ends does an earlier one
begin. -/
structure Clear (t : Text) : Prop where
  trimmed : t.Trimmed
  ne_nil : t ≠ []
  not_and_infix : ¬ Connective.and.spaced <:+: t
  not_and_suffix : ¬ ' ' :: Connective.and.symbol <:+ t

theorem not_infix_tab (h : ¬ c.spaced <:+: t) : ¬ c.spaced <:+: '\t' :: t := by
  intro ht
  rcases List.infix_cons_iff.1 ht with hp | hi
  · exact absurd (List.cons_prefix_cons.1 hp).1 (by decide)
  · exact h hi

theorem parse_tab (t : Text) : parse ('\t' :: t) = parse t := by
  have h := parse_pad (t := t) (a := []) (b := ['\t']) rfl rfl
  rwa [List.append_nil] at h

theorem clear_of_operand (hv : parse v = .ok (.leaf v)) : Clear v := by
  obtain ⟨hc, ha, _⟩ := operand_iff.1 hv
  exact ⟨trimmed_of_isCondition hc, ne_nil_of_isCondition hc, ha, not_and_suffix_of_isCondition hc⟩

theorem Clear.trimmed_join (hs : Clear s) (ht : Clear t) (c : Connective) :
    Text.Trimmed (s ++ c.spaced ++ '\t' :: t) := by
  have h := hs.trimmed.join hs.ne_nil ht.trimmed ht.ne_nil (c.spaced ++ ['\t'])
  rwa [← List.append_assoc, ← List.append_cons] at h

theorem Clear.or (hs : Clear s) (hw : parse w = .ok (.leaf w)) :
    Clear (s ++ Connective.or.spaced ++ '\t' :: w) where
  trimmed := hs.trimmed_join (clear_of_operand hw) .or
  ne_nil := by simp
  not_and_infix := by
    apply not_and_infix_or hs.not_and_infix hs.not_and_suffix (not_infix_tab (operand_iff.1 hw).2.1)
    intro h
    exact absurd (List.cons_prefix_cons.1 h).1 (by decide)
  not_and_suffix := by
    rw [List.append_cons]
    exact not_suffix_append_of_isCondition (x := [' ', 'A', 'N']) (operand_iff.1 hw).1 rfl

namespace Disjunct

theorem clear_padded (h : Disjunct u) : Clear u.padded := by
  cases h with
  | leaf hv => exact clear_of_operand hv
  | or hv hw => exact (clear_of_operand hv).or hw

theorem parse_padded (h : Disjunct u) : parse u.padded = .ok u := by
  have hclear := h.clear_padded
  cases h with
  | leaf hv => exact hv
  | or hv hw =>
    obtain ⟨hcv, _, hov⟩ := operand_iff.1 hv
    obtain ⟨_, _, how⟩ := operand_iff.1 hw
    exact parse_join_or hclear.trimmed.trim_eq hclear.not_and_infix hov
      (not_or_suffix_of_isCondition hcv) (not_infix_tab how) hv ((parse_tab _).trans hw)

theorem eq_or_of_mem_connectives (h : Disjunct u) (hc : c ∈ u.connectives) : c = .or := by
  cases h with
  | leaf => cases hc
  | or => exact List.mem_singleton.1 hc

theorem size_le (h : Disjunct u) : u.depth ≤ 2 ∧ u.leafCount ≤ 2 := by
  cases h with
  | leaf => exact ⟨Nat.le_succ 1, Nat.le_succ 1⟩
  | or => exact ⟨Nat.le_refl 2, Nat.le_refl 2⟩

end Disjunct

theorem disjunct_iff :
    Disjunct u ↔ u.isDisjunct = true ∧ ∀ v ∈ u.leaves, parse v = .ok (.leaf v) := by
  apply Iff.intro
  · intro h
    cases h with
    | leaf hv => exact ⟨rfl, List.forall_mem_singleton.2 hv⟩
    | or hv hw => exact ⟨rfl, List.forall_mem_cons.2 ⟨hv, List.forall_mem_singleton.2 hw⟩⟩
  · intro ⟨h, hv⟩
    revert h
    fun_cases Tree.isDisjunct u with
    | case1 v =>
      intro _
      exact .leaf (hv v (List.mem_singleton_self v))
    | case2 v w =>
      intro _
      exact .or (hv v List.mem_cons_self) (hv w (List.mem_cons_of_mem v (List.mem_singleton_self w)))
    | case3 => nofun

theorem shape_iff :
    Shape u ↔ u.isLayered = true ∧ ∀ v ∈ u.leaves, parse v = .ok (.leaf v) := by
  apply Iff.intro
  · intro h
    cases h with
    | disjunct hd =>
      obtain ⟨_, hv⟩ := disjunct_iff.1 hd
      cases hd with
      | leaf => exact ⟨rfl, hv⟩
      | or => exact ⟨rfl, hv⟩
    | and hl hr =>
      obtain ⟨hl, hvl⟩ := disjunct_iff.1 hl
      obtain ⟨hr, hvr⟩ := disjunct_iff.1 hr
      exact ⟨Bool.and_eq_true_iff.2 ⟨hl, hr⟩, List.forall_mem_append.2 ⟨hvl, hvr⟩⟩
  · intro ⟨h, hv⟩
    revert h
    fun_cases Tree.isLayered u with
    | case1 l r =>
      intro h
      obtain ⟨hl, hr⟩ := Bool.and_eq_true_iff.1 h
      obtain ⟨hvl, hvr⟩ := List.forall_mem_append.1 hv
      exact .and (disjunct_iff.2 ⟨hl, hvl⟩) (disjunct_iff.2 ⟨hr, hvr⟩)
    | case2 =>
      intro h
      exact .disjunct (disjunct_iff.2 ⟨h, hv⟩)

namespace Shape

theorem parse_padded (h : Shape u) : parse u.padded = .ok u := by
  cases h with
  | disjunct hd => exact hd.parse_padded
  | @and l r hl hr =>
    have hclear := hl.clear_padded
    exact parse_join_and (hclear.trimmed_join hr.clear_padded .and).trim_eq hclear.not_and_infix
      hclear.not_and_suffix (not_infix_tab hr.clear_padded.not_and_infix) hl.parse_padded
      ((parse_tab _).trans hr.parse_padded)

theorem eq_or_of_mem_tail (h : Shape u) (hc : c ∈ u.connectives.tail) : c = .or := by
  cases h with
  | disjunct hd => exact hd.eq_or_of_mem_connectives (List.mem_of_mem_tail hc)
  | and hl hr =>
    rcases List.mem_append.1 hc with hc | hc
    · exact hl.eq_or_of_mem_connectives hc
    · exact hr.eq_or_of_mem_connectives hc

theorem mem_connectives (h : Shape u) (hc : c ∈ u.connectives) : c = .and ∨ c = .or := by
  cases h with
  | disjunct hd => exact .inr (hd.eq_or_of_mem_connectives hc)
  | and hl hr =>
    rcases List.mem_cons.1 hc with rfl | hc
    · exact .inl rfl
    · exact .inr (eq_or_of_mem_tail (.and hl hr) hc)

theorem size_le (h : Shape u) : u.depth ≤ 3 ∧ u.leafCount ≤ 4 := by
  cases h with
  | disjunct hd =>
    obtain ⟨hd, hn⟩ := hd.size_le
    omega
  | and hl hr =>
    obtain ⟨hdl, hnl⟩ := hl.size_le
    obtain ⟨hdr, hnr⟩ := hr.size_le
    simp only [Tree.depth, Tree.leafCount]
    omega

end Shape

/-- The trees that are read from texts are the layered ones whose operands are conditions in which no
connective stands. So none has more than four operands, and each operand is read as itself. -/
theorem exists_parse_eq_ok_iff (u : Tree) :
    ((∃ s, parse s = .ok u) ↔ u.isLayered = true ∧ ∀ v ∈ u.leaves, isCondition v = true ∧
      ¬ Connective.and.spaced <:+: v ∧ ¬ Connective.or.spaced <:+: v) ∧
    ∀ s, parse s = .ok u → (u.depth ≤ 3 ∧ u.leafCount ≤ 4) ∧ .and ∉ u.connectives.tail ∧
      (∀ c ∈ u.connectives, c = .and ∨ c = .or) ∧ ∀ v ∈ u.leaves, parse v = .ok (.leaf v) := by
  apply And.intro
  · simp only [← operand_iff, ← shape_iff]
    apply Iff.intro
    · intro ⟨s, h⟩
      exact shape_of_parse h
    · intro h
      exact ⟨u.padded, h.parse_padded⟩
  · intro s h
    have hs := shape_of_parse h
    refine ⟨hs.size_le, fun hc => ?_, fun c => hs.mem_connectives, (shape_iff.1 hs).2⟩
    cases hs.eq_or_of_mem_tail hc

theorem exists_parse_names_like_connectives :
    (∃ s, parse s = .ok (.and (.leaf "OR < 2".toList)
      (.or (.leaf "a = 'x'".toList) (.leaf "AND = 3".toList)))) ∧
    (¬ ∃ s, parse s = .ok (.or (.leaf "a = 'x'".toList)
      (.and (.leaf "b > 2".toList) (.leaf "c > 3".toList)))) ∧
    ∃ u, parse "AND > 1 OR OR < 2 AND a = 'x'".toList = .ok u ∧
      u.leaves = ["AND > 1".toList, "OR < 2".toList, "a = 'x'".toList] ∧
      .and ∉ u.connectives.tail ∧ ∀ v ∈ u.leaves, parse v = .ok (.leaf v) := by
  have hu : parse "AND > 1 OR OR < 2 AND a = 'x'".toList = .ok (.and
      (.or (.leaf "AND > 1".toList) (.leaf "OR < 2".toList)) (.leaf "a = 'x'".toList)) :=
    parse_eq_ok_of_parseWithin (by decide)
  obtain ⟨_, htail, _, hv⟩ := (exists_parse_eq_ok_iff _).2 _ hu
  exact ⟨(exists_parse_eq_ok_iff _).1.2 (by decide), mt (exists_parse_eq_ok_iff _).1.1 (by decide),
    _, hu, rfl, htail, hv⟩

end Rule

end Eligibility

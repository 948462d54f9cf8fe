import Eligibility.Proofs.Rule.Operand

namespace Eligibility.Rule

variable {s : Text} {u : Tree}

/-- One operand, or two that `OR` joins. -/
inductive Disjunct : Tree → Prop
  | leaf {v : Text} (hv : parse v = .ok (.leaf v)) : Disjunct (.leaf v)
  | or {v w : Text} (hv : parse v = .ok (.leaf v)) (hw : parse w = .ok (.leaf w)) :
    Disjunct (.join .or (.leaf v) (.leaf w))

/-- The shape of what is read from a text, in which `AND` stands at the root only. -/
inductive Shape : Tree → Prop
  | disjunct {u : Tree} (h : Disjunct u) : Shape u
  | and {l r : Tree} (hl : Disjunct l) (hr : Disjunct r) : Shape (.join .and l r)

theorem exists_leaf_of_parse (ha : ¬ Connective.and.spaced <:+: s)
    (ho : ¬ Connective.or.spaced <:+: s) (hp : parse s = .ok u) :
    ∃ v, u = .leaf v ∧ parse v = .ok (.leaf v) := by
  have ha' := Text.not_infix_trim ha
  have ho' := Text.not_infix_trim ho
  rw [parse_eq_leaf (split?_eq_none ha' ho')] at hp
  split at hp
  case isTrue hc =>
    cases hp
    exact ⟨s.trim, rfl, parse_eq_ok_leaf_iff.2 ⟨s.trim_trim, hc, ha', ho'⟩⟩
  case isFalse => cases hp

theorem disjunct_of_parse (ha : ¬ Connective.and.spaced <:+: s) (hp : parse s = .ok u) :
    Disjunct u := by
  rcases split?_cases s.trim with ⟨x, y, hf, hs⟩ | ⟨_, x, y, hf, hs⟩ | ⟨_, ho, hs⟩
  · exact absurd (Text.sep_infix_of_firstTwo? hf) (Text.not_infix_trim ha)
  · -- Neither part of a text without `AND` that is cut at `OR` holds a connective.
    obtain ⟨l, r, rfl, hx, hy⟩ := exists_parts_of_parse hs hp
    obtain ⟨hix, hiy⟩ := Text.infix_of_firstTwo? hf
    obtain ⟨hox, hoy⟩ := Text.not_infix_of_firstTwo? Connective.or.spaced_ne_nil hf
    have hpart {p : Text} (hi : p <:+: s.trim) : ¬ Connective.and.spaced <:+: p :=
      fun h => ha ((h.trans hi).trans s.trim_isInfix)
    obtain ⟨v, rfl, hv⟩ := exists_leaf_of_parse (hpart hix) hox hx
    obtain ⟨w, rfl, hw⟩ := exists_leaf_of_parse (hpart hiy) hoy hy
    exact .or hv hw
  · rw [← parse_trim] at hp
    obtain ⟨v, rfl, hv⟩ := exists_leaf_of_parse (Text.not_infix_trim ha) ho hp
    exact .leaf hv

theorem shape_of_parse (hp : parse s = .ok u) : Shape u := by
  rcases split?_cases s.trim with ⟨x, y, hf, hs⟩ | ⟨ha, _⟩ | ⟨ha, _⟩
  · obtain ⟨l, r, rfl, hx, hy⟩ := exists_parts_of_parse hs hp
    obtain ⟨hax, hay⟩ := Text.not_infix_of_firstTwo? Connective.and.spaced_ne_nil hf
    exact .and (disjunct_of_parse hax hx) (disjunct_of_parse hay hy)
  · rw [← parse_trim] at hp
    exact .disjunct (disjunct_of_parse ha hp)
  · rw [← parse_trim] at hp
    exact .disjunct (disjunct_of_parse ha hp)

end Eligibility.Rule

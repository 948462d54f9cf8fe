import Eligibility.Proofs.Text.Spaced
import Eligibility.Rule.Parse

namespace Eligibility

/-- The symbol of a connective as it stands between two rules of a text. -/
def Connective.spaced (c : Connective) : Text := Text.spaced c.symbol

theorem Connective.spaced_ne_nil (c : Connective) : c.spaced ≠ [] := Text.spaced_ne_nil _

namespace Rule

variable {t left right p : Text} {c : Connective}

theorem split?_eq_or_else (t : Text) : split? t =
    ((t.firstTwo? Connective.and.spaced).map (Connective.and, ·)).or
      ((t.firstTwo? Connective.or.spaced).map (Connective.or, ·)) := by
  have ha : Connective.and.separator?.bind t.firstTwo? = t.firstTwo? Connective.and.spaced := rfl
  have ho : Connective.or.separator?.bind t.firstTwo? = t.firstTwo? Connective.or.spaced := rfl
  simp only [split?, splitOn?, ha, ho]
  cases t.firstTwo? Connective.and.spaced with
  | some parts => rfl
  | none => cases t.firstTwo? Connective.or.spaced <;> rfl

theorem split?_eq_and (h : t.firstTwo? Connective.and.spaced = some (left, right)) :
    split? t = some (.and, left, right) := by
  rw [split?_eq_or_else, h]
  rfl

theorem split?_eq_or (ha : ¬ Connective.and.spaced <:+: t)
    (h : t.firstTwo? Connective.or.spaced = some (left, right)) :
    split? t = some (.or, left, right) := by
  rw [split?_eq_or_else, Text.firstTwo?_eq_none_iff.2 ha, h]
  rfl

theorem split?_eq_none (ha : ¬ Connective.and.spaced <:+: t)
    (ho : ¬ Connective.or.spaced <:+: t) : split? t = none := by
  rw [split?_eq_or_else, Text.firstTwo?_eq_none_iff.2 ha, Text.firstTwo?_eq_none_iff.2 ho]
  rfl

/-- All that splitting a text can come to. -/
theorem split?_cases (t : Text) :
    (∃ left right, t.firstTwo? Connective.and.spaced = some (left, right) ∧
      split? t = some (.and, left, right)) ∨
    (¬ Connective.and.spaced <:+: t ∧ ∃ left right,
      t.firstTwo? Connective.or.spaced = some (left, right) ∧
      split? t = some (.or, left, right)) ∨
    (¬ Connective.and.spaced <:+: t ∧ ¬ Connective.or.spaced <:+: t ∧ split? t = none) := by
  cases ha : t.firstTwo? Connective.and.spaced with
  | some parts => exact .inl ⟨parts.1, parts.2, rfl, split?_eq_and ha⟩
  | none =>
    have hna := Text.firstTwo?_eq_none_iff.1 ha
    cases ho : t.firstTwo? Connective.or.spaced with
    | some parts => exact .inr (.inl ⟨hna, parts.1, parts.2, rfl, split?_eq_or hna ho⟩)
    | none =>
      have hno := Text.firstTwo?_eq_none_iff.1 ho
      exact .inr (.inr ⟨hna, hno, split?_eq_none hna hno⟩)

theorem parse_join {l r : Tree} (h : split? t.trim = some (c, left, right))
    (hl : parse left = .ok l) (hr : parse right = .ok r) : parse t = .ok (.join c l r) := by
  rw [parse_eq_bind h, hl, hr]
  rfl

theorem exists_parts_of_parse {u : Tree} (h : split? t.trim = some (c, left, right))
    (hp : parse t = .ok u) :
    ∃ l r, u = .join c l r ∧ parse left = .ok l ∧ parse right = .ok r := by
  rw [parse_eq_bind h] at hp
  cases hl : parse left with
  | error e => rw [hl] at hp; cases hp
  | ok l =>
    cases hr : parse right with
    | error e => rw [hl, hr] at hp; cases hp
    | ok r =>
      rw [hl, hr] at hp
      cases hp
      exact ⟨l, r, rfl, rfl, rfl⟩

/-- A rule that a connective joins was split at that connective. -/
theorem exists_firstTwo?_of_parse {l r : Tree} (h : parse t = .ok (.join c l r)) :
    ∃ left right, t.trim.firstTwo? c.spaced = some (left, right) ∧
      parse left = .ok l ∧ parse right = .ok r := by
  have hparts : ∀ d left right, t.trim.firstTwo? d.spaced = some (left, right) →
      split? t.trim = some (d, left, right) → ∃ left right,
        t.trim.firstTwo? c.spaced = some (left, right) ∧ parse left = .ok l ∧
          parse right = .ok r := by
    intro d left right hf hs
    obtain ⟨l', r', hu, hl, hr⟩ := exists_parts_of_parse hs h
    cases hu
    exact ⟨left, right, hf, hl, hr⟩
  rcases split?_cases t.trim with ⟨left, right, hf, hs⟩ | ⟨_, left, right, hf, hs⟩ | ⟨_, _, hs⟩
  · exact hparts .and left right hf hs
  · exact hparts .or left right hf hs
  · rw [parse_eq_leaf hs] at h
    split at h
    case isTrue => cases h
    case isFalse => cases h

theorem parse_trim (t : Text) : parse t.trim = parse t := by
  cases h : split? t.trim with
  | none => rw [parse_eq_leaf h, parse_eq_leaf (by rwa [Text.trim_trim]), Text.trim_trim]
  | some s => rw [parse_eq_bind h, parse_eq_bind (by rwa [Text.trim_trim])]

/-- Two texts with an `AND` between them are read as a conjunction if no earlier `AND` begins and no
later one follows. -/
theorem parse_join_and {l r : Tree}
    (ht : Text.trim (left ++ Connective.and.spaced ++ right) =
      left ++ Connective.and.spaced ++ right)
    (ha : ¬ Connective.and.spaced <:+: left) (ha' : ¬ ' ' :: Connective.and.symbol <:+ left)
    (hb : ¬ Connective.and.spaced <:+: right) (hl : parse left = .ok l) (hr : parse right = .ok r) :
    parse (left ++ Connective.and.spaced ++ right) = .ok (.join .and l r) := by
  apply parse_join ?_ hl hr
  rw [ht]
  apply split?_eq_and
  exact Text.firstTwo?_spaced (by decide) ha ha' hb

theorem parse_join_or {l r : Tree}
    (ht : Text.trim (left ++ Connective.or.spaced ++ right) = left ++ Connective.or.spaced ++ right)
    (hand : ¬ Connective.and.spaced <:+: left ++ Connective.or.spaced ++ right)
    (ha : ¬ Connective.or.spaced <:+: left) (ha' : ¬ ' ' :: Connective.or.symbol <:+ left)
    (hb : ¬ Connective.or.spaced <:+: right) (hl : parse left = .ok l) (hr : parse right = .ok r) :
    parse (left ++ Connective.or.spaced ++ right) = .ok (.join .or l r) := by
  apply parse_join ?_ hl hr
  rw [ht]
  apply split?_eq_or hand
  exact Text.firstTwo?_spaced (by decide) ha ha' hb

/-- Blanks around a text do not change the rule that it is. -/
theorem parse_pad {a b : Text} (hb : b.all Text.isBlank = true) (ha : a.all Text.isBlank = true) :
    parse (b ++ t ++ a) = parse t := by
  rw [← parse_trim, Text.trim_pad hb ha, parse_trim]

end Rule

end Eligibility

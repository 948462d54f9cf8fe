import Eligibility.Proofs.Text.Trim
import Eligibility.Text.Cut
import Eligibility.Text.Pieces
import Mathlib.Data.List.Infix

namespace Eligibility.Text

variable {t sep first rest second before after : Text} {c : Char}

theorem append_dropLast_isPrefix (first sep rest : Text) :
    first ++ sep.dropLast <+: first ++ sep ++ rest :=
  ((List.prefix_append_right_inj first).2 sep.dropLast_prefix).trans (List.prefix_append _ _)

/-- The separator of a cut does not begin any earlier in the text. -/
theorem not_infix_of_cut? (hs : sep ≠ []) (h : t.cut? sep = some (first, rest)) :
    ¬ sep <:+: first ++ sep.dropLast := by
  have hl := List.length_pos_iff.2 hs
  induction t generalizing first with
  | nil =>
    rw [cut?_nil, if_neg hs] at h
    cases h
  | cons c t ih =>
    have ht := append_of_cut? h
    rw [cut?_cons] at h
    split at h
    case isTrue =>
      cases h
      intro hi
      have := hi.length_le
      simp only [List.nil_append, List.length_dropLast] at this
      omega
    case isFalse hp =>
      obtain ⟨p, hc, he⟩ := Option.map_eq_some_iff.1 h
      cases he
      rw [List.cons_append, List.infix_cons_iff]
      rintro (hi | hi)
      · apply hp
        rw [ht]
        exact hi.trans (append_dropLast_isPrefix (c :: p.1) sep p.2)
      · exact ih hc hi

/-- A cut at a separator that does not begin any earlier. -/
theorem cut?_append (h : ¬ sep <:+: first ++ sep.dropLast) :
    cut? (first ++ sep ++ rest) sep = some (first, rest) := by
  have hs : sep ≠ [] := by
    intro h0
    exact h (h0 ▸ List.nil_infix)
  induction first with
  | nil =>
    obtain ⟨s, sep, rfl⟩ := List.exists_cons_of_ne_nil hs
    rw [List.nil_append, List.cons_append, cut?_cons, if_pos ⟨rest, rfl⟩, ← List.cons_append,
      List.drop_left]
  | cons c first ih =>
    rw [List.cons_append, List.infix_cons_iff, not_or] at h
    have hp : ¬ sep <+: c :: (first ++ sep ++ rest) := by
      intro hp
      apply h.1
      apply List.prefix_of_prefix_length_le hp
      · exact append_dropLast_isPrefix (c :: first) sep rest
      · have := List.length_pos_iff.2 hs
        simp only [List.length_cons, List.length_append, List.length_dropLast]
        omega
    rw [List.cons_append, List.cons_append, cut?_cons, if_neg hp, ih h.2]
    rfl

/-- What is added behind a text does not move its first cut. -/
theorem cut?_append_right (hs : sep ≠ []) (h : t.cut? sep = some (first, rest)) (more : Text) :
    cut? (t ++ more) sep = some (first, rest ++ more) := by
  rw [append_of_cut? h, List.append_assoc]
  exact cut?_append (not_infix_of_cut? hs h)

theorem cut?_char (h : c ∉ before) : cut? (before ++ c :: after) [c] = some (before, after) := by
  rw [List.append_cons]
  apply cut?_append
  rwa [List.dropLast_singleton, List.append_nil, List.singleton_infix_iff]

theorem cut?_char_eq_none (h : c ∉ t) : t.cut? [c] = none := by
  rwa [cut?_eq_none_iff, List.singleton_infix_iff]

/-- A character of a text has a first place there. -/
theorem exists_first_place (h : c ∈ t) : ∃ before after, t = before ++ c :: after ∧ c ∉ before := by
  cases hc : t.cut? [c] with
  | none => exact absurd ((List.singleton_infix_iff c t).2 h) (cut?_eq_none_iff.1 hc)
  | some p =>
    refine ⟨p.1, p.2, ?_, ?_⟩
    · rw [List.append_cons]
      exact append_of_cut? hc
    · have hn := not_infix_of_cut? (List.cons_ne_nil c []) hc
      rwa [List.dropLast_singleton, List.append_nil, List.singleton_infix_iff] at hn

theorem firstTwo?_eq_none_iff : t.firstTwo? sep = none ↔ ¬ sep <:+: t := by
  rw [firstTwo?, Option.map_eq_none_iff, cut?_eq_none_iff]

/-- The first two parts of a text come from a cut of it and, if there is one, a cut of the rest. -/
theorem exists_cut?_of_firstTwo? (h : t.firstTwo? sep = some (first, second)) :
    ∃ rest, t.cut? sep = some (first, rest) ∧
      (rest.cut? sep = none ∧ second = rest ∨ ∃ after, rest.cut? sep = some (second, after)) := by
  obtain ⟨⟨first, rest⟩, hc, he⟩ := Option.map_eq_some_iff.1 h
  refine ⟨rest, ?_⟩
  cases hn : rest.cut? sep with
  | none =>
    rw [hn] at he
    cases he
    exact ⟨hc, .inl ⟨rfl, rfl⟩⟩
  | some q =>
    rw [hn] at he
    cases he
    exact ⟨hc, .inr ⟨q.2, rfl⟩⟩

theorem not_infix_of_firstTwo? (hs : sep ≠ []) (h : t.firstTwo? sep = some (first, second)) :
    ¬ sep <:+: first ∧ ¬ sep <:+: second := by
  obtain ⟨rest, hc, ⟨hn, rfl⟩ | ⟨after, hn⟩⟩ := exists_cut?_of_firstTwo? h
  · refine ⟨fun hi => not_infix_of_cut? hs hc (List.infix_append_of_infix_left hi), ?_⟩
    exact cut?_eq_none_iff.1 hn
  · refine ⟨fun hi => not_infix_of_cut? hs hc (List.infix_append_of_infix_left hi), ?_⟩
    exact fun hi => not_infix_of_cut? hs hn (List.infix_append_of_infix_left hi)

theorem sep_infix_of_firstTwo? (h : t.firstTwo? sep = some (first, second)) : sep <:+: t := by
  obtain ⟨rest, hc, _⟩ := exists_cut?_of_firstTwo? h
  exact ⟨first, rest, (append_of_cut? hc).symm⟩

theorem infix_of_cut? (h : t.cut? sep = some (first, rest)) : first <:+: t ∧ rest <:+: t := by
  rw [append_of_cut? h]
  refine ⟨?_, (List.suffix_append _ _).isInfix⟩
  rw [List.append_assoc]
  exact (List.prefix_append _ _).isInfix

theorem infix_of_firstTwo? (h : t.firstTwo? sep = some (first, second)) :
    first <:+: t ∧ second <:+: t := by
  obtain ⟨rest, hc, ⟨_, rfl⟩ | ⟨after, hn⟩⟩ := exists_cut?_of_firstTwo? h
  · exact infix_of_cut? hc
  · obtain ⟨hf, hr⟩ := infix_of_cut? hc
    exact ⟨hf, (infix_of_cut? hn).1.trans hr⟩

theorem firstTwo?_of_not_infix (h : t.cut? sep = some (first, rest)) (hr : ¬ sep <:+: rest) :
    t.firstTwo? sep = some (first, rest) := by
  rw [firstTwo?, h, Option.map_some, cut?_eq_none_iff.2 hr]
  rfl

theorem firstTwo?_of_cut? (h : t.cut? sep = some (first, rest))
    (hr : rest.cut? sep = some (second, after)) : t.firstTwo? sep = some (first, second) := by
  rw [firstTwo?, h, Option.map_some, hr]
  rfl

theorem exists_firstTwo?_of_cut? (h : t.cut? sep = some (first, rest)) :
    ∃ second, second <+: rest ∧ t.firstTwo? sep = some (first, second) := by
  cases hn : rest.cut? sep with
  | none => exact ⟨rest, List.prefix_rfl, firstTwo?_of_not_infix h (cut?_eq_none_iff.1 hn)⟩
  | some q =>
    refine ⟨q.1, ?_, firstTwo?_of_cut? h hn⟩
    rw [append_of_cut? hn, List.append_assoc]
    exact List.prefix_append _ _

theorem pieces_eq_singleton (h : ¬ sep <:+: t) : t.pieces sep = [t] := by
  fun_induction pieces t sep with
  | case1 => rfl
  | case2 => exact absurd List.nil_infix h
  | case3 c t s sep hp => exact absurd (List.isPrefixOf_iff_prefix.1 hp).isInfix h
  | case4 c t s sep hp ih =>
    rw [List.infix_cons_iff, not_or] at h
    rw [ih h.2]
    rfl

theorem pieces_of_cut? (hs : sep ≠ []) (h : t.cut? sep = some (first, rest)) :
    t.pieces sep = first :: rest.pieces sep := by
  obtain ⟨s, sep, rfl⟩ := List.exists_cons_of_ne_nil hs
  induction t generalizing first with
  | nil =>
    rw [cut?_nil, if_neg hs] at h
    cases h
  | cons c t ih =>
    rw [cut?_cons] at h
    split at h
    case isTrue hp =>
      cases h
      rw [pieces, if_pos (List.isPrefixOf_iff_prefix.2 hp)]
      rfl
    case isFalse hp =>
      obtain ⟨p, hc, he⟩ := Option.map_eq_some_iff.1 h
      cases he
      rw [pieces, if_neg (mt List.isPrefixOf_iff_prefix.1 hp), ih hc]
      rfl

/-- What `firstTwo?` keeps of a text are the first two of all its pieces. -/
theorem take_two_pieces (hs : sep ≠ []) (t : Text) : (t.pieces sep).take 2 =
    match t.firstTwo? sep with
    | some (first, second) => [first, second]
    | none => [t] := by
  cases h : t.cut? sep with
  | none => rw [firstTwo?, h, pieces_eq_singleton (cut?_eq_none_iff.1 h)]; rfl
  | some p =>
    rw [firstTwo?, h, pieces_of_cut? hs h]
    cases hn : p.2.cut? sep with
    | none =>
      rw [pieces_eq_singleton (cut?_eq_none_iff.1 hn)]
      simp only [Option.map_some, hn, Option.map_none, Option.getD_none]
      rfl
    | some q =>
      rw [pieces_of_cut? hs hn]
      simp only [Option.map_some, hn, Option.getD_some]
      rfl

end Eligibility.Text

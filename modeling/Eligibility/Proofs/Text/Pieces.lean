import Eligibility.Proofs.Text.Cut

namespace Eligibility.Text

variable {t sep first second p : Text} {c : Char} {ps : List Text}

theorem intercalate_consFirst (sep : Text) (c : Char) (h : ps ≠ []) :
    sep.intercalate (consFirst c ps) = c :: sep.intercalate ps := by
  cases ps with
  | nil => exact absurd rfl h
  | cons p ps =>
    cases ps with
    | nil =>
      rw [List.intercalate_singleton]
      exact List.intercalate_singleton
    | cons q ps =>
      rw [List.intercalate_cons_cons]
      exact List.intercalate_cons_cons

/-- The pieces with the separator between them are the text again. -/
theorem intercalate_pieces (t sep : Text) : sep.intercalate (t.pieces sep) = t := by
  fun_induction pieces t sep with
  | case1 sep => exact List.intercalate_singleton
  | case2 c t ih => rw [intercalate_consFirst [] c (pieces_ne_nil t []), ih]
  | case3 c t s sep hp ih =>
    obtain ⟨rfl, rest, rfl⟩ := List.cons_prefix_cons.1 (List.isPrefixOf_iff_prefix.1 hp)
    rw [List.intercalate_cons_of_ne_nil (pieces_ne_nil _ _), ih, List.drop_left]
    rfl
  | case4 c t s sep hp ih => rw [intercalate_consFirst _ c (pieces_ne_nil t _), ih]

/-- The first piece is where the text begins. -/
theorem isPrefix_of_pieces (h : t.pieces sep = p :: ps) : p <+: t := by
  have ht := intercalate_pieces t sep
  rw [h] at ht
  cases ps with
  | nil =>
    rw [List.intercalate_singleton] at ht
    exact ht ▸ List.prefix_rfl
  | cons q ps =>
    rw [List.intercalate_cons_cons, List.append_assoc] at ht
    exact ⟨_, ht⟩

theorem not_infix_of_mem_pieces (hs : sep ≠ []) (h : p ∈ t.pieces sep) : ¬ sep <:+: p := by
  fun_induction pieces t sep generalizing p with
  | case1 sep =>
    rw [List.mem_singleton.1 h, List.infix_nil]
    exact hs
  | case2 c t ih => exact absurd rfl hs
  | case3 c t s sep hp ih =>
    rcases List.mem_cons.1 h with rfl | h
    · rw [List.infix_nil]
      exact hs
    · exact ih hs h
  | case4 c t s sep hp ih =>
    obtain ⟨q, qs, hq⟩ := List.exists_cons_of_ne_nil (pieces_ne_nil t (s :: sep))
    rw [hq] at ih
    rw [hq, consFirst] at h
    rcases List.mem_cons.1 h with rfl | h
    · -- A separator that begins with `c` would begin the text.
      rw [List.infix_cons_iff]
      rintro (hi | hi)
      · apply hp
        rw [List.isPrefixOf_iff_prefix]
        exact hi.trans (List.cons_prefix_cons.2 ⟨rfl, isPrefix_of_pieces hq⟩)
      · exact ih hs List.mem_cons_self hi
    · exact ih hs (List.mem_cons_of_mem q h)

/-- A text is kept in two parts as soon as it has two pieces, and the parts are the first two. -/
theorem firstTwo?_eq_some_iff (hs : sep ≠ []) : t.firstTwo? sep = some (first, second) ↔
    ∃ more, t.pieces sep = first :: second :: more := by
  have htake := take_two_pieces hs t
  constructor
  · intro h
    rw [h] at htake
    exact ⟨_, ((List.take_append_drop 2 _).symm.trans (congrArg (· ++ _) htake))⟩
  · rintro ⟨more, hmore⟩
    rw [hmore] at htake
    cases hf : t.firstTwo? sep with
    | none =>
      rw [hf] at htake
      cases htake
    | some parts =>
      rw [hf] at htake
      cases htake
      rfl

/-- What is dropped behind the first two pieces is nothing or begins with a separator. -/
theorem exists_tail_of_pieces {more : List Text} (h : t.pieces sep = first :: second :: more) :
    ∃ tail, t = first ++ sep ++ second ++ tail ∧ (tail = [] ∨ sep <+: tail) := by
  have ht := intercalate_pieces t sep
  rw [h, List.intercalate_cons_cons] at ht
  cases more with
  | nil =>
    rw [List.intercalate_singleton] at ht
    exact ⟨[], by rw [List.append_nil, ht], .inl rfl⟩
  | cons p more =>
    rw [List.intercalate_cons_cons, List.append_assoc second, ← List.append_assoc] at ht
    exact ⟨_, ht.symm, .inr (List.prefix_append _ _)⟩

/-- A text has two parts exactly if it holds the separator. They are the first two of the pieces
that all the separators, met from left to right, leave of the text; neither holds a separator
itself, and what follows them is nothing or begins with the next separator. -/
theorem firstTwo?_keeps_first_pieces (hs : sep ≠ []) (t : Text) :
    ((t.firstTwo? sep).isSome = true ↔ sep <:+: t) ∧
    sep.intercalate (t.pieces sep) = t ∧ (∀ p ∈ t.pieces sep, ¬ sep <:+: p) ∧
    ∀ first second,
      (t.firstTwo? sep = some (first, second) ↔
        ∃ more, t.pieces sep = first :: second :: more) ∧
      (t.firstTwo? sep = some (first, second) →
        ¬ sep <:+: first ∧ ¬ sep <:+: second ∧
        ∃ tail, t = first ++ sep ++ second ++ tail ∧ (tail = [] ∨ sep <+: tail)) := by
  refine ⟨?_, intercalate_pieces t sep, fun p => not_infix_of_mem_pieces hs, ?_⟩
  · rw [← not_iff_not, ← firstTwo?_eq_none_iff, Option.not_isSome_iff_eq_none]
  · intro first second
    apply And.intro (firstTwo?_eq_some_iff hs)
    intro h
    obtain ⟨more, hmore⟩ := (firstTwo?_eq_some_iff hs).1 h
    obtain ⟨hf, hn⟩ := not_infix_of_firstTwo? hs h
    exact ⟨hf, hn, exists_tail_of_pieces hmore⟩

/-- The space between the first two `AND`s belongs to the first separator, so that the second of
them is in a piece. -/
theorem firstTwo?_keeps_first_pieces_overlapping :
    " AND ".toList ≠ [] ∧
    Text.firstTwo? "a AND AND b AND  AND c".toList " AND ".toList =
      some ("a".toList, "AND b".toList) ∧
    (∃ more, Text.pieces "a AND AND b AND  AND c".toList " AND ".toList =
      "a".toList :: "AND b".toList :: more) ∧
    ∃ tail, "a AND AND b AND  AND c".toList =
      "a".toList ++ " AND ".toList ++ "AND b".toList ++ tail ∧
        (tail = [] ∨ " AND ".toList <+: tail) := by
  have hs : " AND ".toList ≠ [] := by decide
  have hf : Text.firstTwo? "a AND AND b AND  AND c".toList " AND ".toList =
      some ("a".toList, "AND b".toList) := by decide
  obtain ⟨-, -, -, h⟩ := firstTwo?_keeps_first_pieces hs "a AND AND b AND  AND c".toList
  obtain ⟨hp, ht⟩ := h "a".toList "AND b".toList
  exact ⟨hs, hf, hp.1 hf, (ht hf).2.2⟩

end Eligibility.Text

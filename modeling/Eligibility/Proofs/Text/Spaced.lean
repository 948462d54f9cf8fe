import Eligibility.Proofs.Text.Cut

namespace Eligibility.Text

variable {a b t v w x y : Text}

/-- A word with a space on each side. -/
def spaced (w : Text) : Text := ' ' :: w ++ [' ']

theorem spaced_ne_nil (w : Text) : spaced w ≠ [] := nofun

theorem dropLast_spaced (w : Text) : (spaced w).dropLast = ' ' :: w := List.dropLast_concat

theorem prefix_append_space (hv : ' ' ∉ v) (h : v ++ [' '] <+: x ++ ' ' :: y) :
    v ++ [' '] <+: x ++ [' '] := by
  induction v generalizing x with
  | nil =>
    cases x with
    | nil => exact List.prefix_rfl
    | cons c x =>
      rw [(List.cons_prefix_cons.1 h).1]
      exact List.prefix_append _ _
  | cons d v ih =>
    rw [List.mem_cons, not_or] at hv
    cases x with
    | nil => exact absurd (List.cons_prefix_cons.1 h).1.symm hv.1
    | cons c x =>
      obtain ⟨hc, ht⟩ := List.cons_prefix_cons.1 h
      exact List.cons_prefix_cons.2 ⟨hc, ih hv.2 ht⟩

theorem spaced_infix_cons_iff :
    spaced v <:+: ' ' :: y ↔ v ++ [' '] <+: y ∨ spaced v <:+: y := by
  rw [List.infix_cons_iff, spaced, List.cons_append, List.prefix_cons_inj]

theorem spaced_infix_concat_iff :
    spaced v <:+: x ++ [' '] ↔ ' ' :: v <:+ x ∨ spaced v <:+: x := by
  rw [List.infix_concat_iff, spaced, List.suffix_append_self_iff]

/-- A word between spaces does not reach across a space. -/
theorem spaced_infix_append_iff (hv : ' ' ∉ v) : spaced v <:+: x ++ ' ' :: y ↔
    spaced v <:+: x ++ [' '] ∨ spaced v <:+: ' ' :: y := by
  constructor
  · intro h
    induction x with
    | nil => exact .inr h
    | cons c x ih =>
      rcases List.infix_cons_iff.1 h with h | h
      · obtain ⟨hc, ht⟩ := List.cons_prefix_cons.1 h
        exact .inl (List.cons_prefix_cons.2 ⟨hc, prefix_append_space hv ht⟩).isInfix
      · exact (ih h).imp_left List.infix_cons
  · rintro (h | h)
    · rw [List.append_cons]
      exact List.infix_append_of_infix_left h
    · exact List.infix_append_of_infix_right h

/-- Where a word between spaces can stand in two texts joined by another one. -/
theorem spaced_infix_join_iff (hv : ' ' ∉ v) : spaced v <:+: a ++ spaced w ++ b ↔
    (' ' :: v <:+ a ∨ spaced v <:+: a) ∨ spaced v <:+: spaced w ∨
      (v ++ [' '] <+: b ∨ spaced v <:+: b) := by
  have he : a ++ spaced w ++ b = a ++ ' ' :: (w ++ ' ' :: b) := by
    simp only [spaced, List.cons_append, List.append_assoc, List.nil_append]
  rw [he, spaced_infix_append_iff hv, spaced_infix_concat_iff, ← List.cons_append,
    spaced_infix_append_iff hv, spaced_infix_cons_iff (y := b)]
  rfl

theorem not_spaced_infix_append (hw : ' ' ∉ w) (ha : ¬ spaced w <:+: a) (ha' : ¬ ' ' :: w <:+ a)
    (hb : ¬ spaced w <:+: ' ' :: b) : ¬ spaced w <:+: a ++ ' ' :: b := by
  rw [spaced_infix_append_iff hw, spaced_infix_concat_iff]
  rintro ((h | h) | h)
  · exact ha' h
  · exact ha h
  · exact hb h

/-- The first word between spaces is where the text before it neither holds nor begins one. -/
theorem cut?_spaced (hw : ' ' ∉ w) (ha : ¬ spaced w <:+: a) (ha' : ¬ ' ' :: w <:+ a) :
    cut? (a ++ spaced w ++ b) (spaced w) = some (a, b) := by
  apply cut?_append
  rw [dropLast_spaced]
  apply not_spaced_infix_append hw ha ha'
  intro h
  have := h.length_le
  simp only [spaced, List.length_cons, List.length_append, List.length_nil] at this
  omega

theorem firstTwo?_spaced (hw : ' ' ∉ w) (ha : ¬ spaced w <:+: a) (ha' : ¬ ' ' :: w <:+ a)
    (hb : ¬ spaced w <:+: b) : firstTwo? (a ++ spaced w ++ b) (spaced w) = some (a, b) :=
  firstTwo?_of_not_infix (cut?_spaced hw ha ha') hb

/-- Blanks behind a text complete no word between spaces that the text does not end in. -/
theorem not_spaced_infix_pad (hw : w ≠ []) (hn : ∀ c ∈ w, isBlank c = false)
    (ha : ¬ spaced w <:+: a) (ha' : ¬ ' ' :: w <:+ a) (hb : b.all isBlank = true) :
    ¬ spaced w <:+: a ++ b ∧ ¬ ' ' :: w <:+ a ++ b := by
  -- Induction from the end: each blank is either no space or stands behind no such word.
  induction b using List.reverseRecOn with
  | nil =>
    rw [List.append_nil]
    exact ⟨ha, ha'⟩
  | append_singleton b c ih =>
    rw [List.all_append, Bool.and_eq_true] at hb
    obtain ⟨hi, hs⟩ := ih hb.1
    have hc : isBlank c = true := List.all_eq_true.1 hb.2 c List.mem_cons_self
    rw [← List.append_assoc]
    apply And.intro
    · rw [List.infix_concat_iff]
      rintro (h | h)
      · obtain ⟨x, hx⟩ := h
        rw [spaced, ← List.append_assoc] at hx
        obtain ⟨hx, -⟩ := List.append_inj' hx rfl
        exact hs ⟨x, hx⟩
      · exact hi h
    · rintro ⟨x, hx⟩
      obtain ⟨front, d, rfl⟩ := (List.eq_nil_or_concat' w).resolve_left hw
      rw [← List.cons_append, ← List.append_assoc] at hx
      obtain ⟨-, hd⟩ := List.append_inj' hx rfl
      cases hd
      have hf := hn c (List.mem_append_right front List.mem_cons_self)
      rw [hc] at hf
      cases hf

/-- The second part of a text ends in the word only where the text itself does. -/
theorem not_suffix_of_firstTwo? (h : t.firstTwo? (spaced w) = some (x, y))
    (ht : ¬ ' ' :: w <:+ t) : ¬ ' ' :: w <:+ y := by
  obtain ⟨rest, hc, ⟨_, rfl⟩ | ⟨after, hn⟩⟩ := exists_cut?_of_firstTwo? h
  · intro hy
    apply ht
    rw [append_of_cut? hc]
    exact hy.trans (List.suffix_append _ _)
  · -- With the separator behind it, the part would hold one that begins earlier.
    rintro ⟨z, rfl⟩
    apply not_infix_of_cut? (spaced_ne_nil w) hn
    rw [dropLast_spaced]
    refine ⟨z, w, ?_⟩
    simp only [spaced, List.append_assoc, List.cons_append, List.nil_append]

/-- A further part behind a text leaves the first two as they are, with blanks behind the second
one at most, unless the word and the space in front of it already end the second one. -/
theorem firstTwo?_append_spaced (hw : w ≠ []) (hn : ∀ c ∈ w, isBlank c = false)
    (h : t.firstTwo? (spaced w) = some (x, y)) (hy : ¬ ' ' :: w <:+ y)
    (hb : b.all isBlank = true) (more : Text) : ∃ b' : Text, b'.all isBlank = true ∧
      firstTwo? (t ++ b ++ spaced w ++ more) (spaced w) = some (x, y ++ b') := by
  have hs : ' ' ∉ w := by
    intro hm
    cases hn ' ' hm
  obtain ⟨rest, hc, hrest⟩ := exists_cut?_of_firstTwo? h
  have hc' : cut? (t ++ b ++ spaced w ++ more) (spaced w) =
      some (x, rest ++ (b ++ spaced w ++ more)) := by
    have he := cut?_append_right (spaced_ne_nil w) hc (b ++ spaced w ++ more)
    rwa [← List.append_assoc, ← List.append_assoc] at he
  rcases hrest with ⟨hr, rfl⟩ | ⟨after, hr⟩
  · obtain ⟨hi, hsuf⟩ := not_spaced_infix_pad hw hn (cut?_eq_none_iff.1 hr) hy hb
    have hr' : cut? (y ++ (b ++ spaced w ++ more)) (spaced w) = some (y ++ b, more) := by
      rw [← List.append_assoc, ← List.append_assoc]
      exact cut?_spaced hs hi hsuf
    exact ⟨b, hb, firstTwo?_of_cut? hc' hr'⟩
  · have hr' := cut?_append_right (spaced_ne_nil w) hr (b ++ spaced w ++ more)
    refine ⟨[], rfl, ?_⟩
    rw [List.append_nil]
    exact firstTwo?_of_cut? hc' hr'

end Eligibility.Text

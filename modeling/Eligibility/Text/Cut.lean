import Eligibility.Text.Basic

namespace Eligibility.Text

/-- Looks for `sep` in the text with the characters `before` (the last one first) already passed. -/
def cutFrom? (sep : Text) : (before t : Text) → Option (Text × Text)
  | before, [] => if sep.isEmpty then some (before.reverse, []) else none
  | before, c :: t =>
    if sep.isPrefixOf (c :: t) then some (before.reverse, (c :: t).drop sep.length)
    else cutFrom? sep (c :: before) t

def cut? (t sep : Text) : Option (Text × Text) := cutFrom? sep [] t

theorem cutFrom?_eq (sep before t : Text) :
    cutFrom? sep before t = (t.cut? sep).map fun p => (before.reverse ++ p.1, p.2) := by
  induction t generalizing before with
  | nil => simp only [cut?, cutFrom?]; split <;> simp
  | cons c t ih =>
    simp only [cut?, cutFrom?]
    split
    · simp
    · rw [ih, ih [c]]
      simp [Function.comp_def]

theorem cut?_nil (sep : Text) : cut? [] sep = if sep = [] then some ([], []) else none := by
  cases sep <;> simp [cut?, cutFrom?]

theorem cut?_cons (c : Char) (t sep : Text) :
    cut? (c :: t) sep = if sep <+: c :: t then some ([], (c :: t).drop sep.length)
      else (t.cut? sep).map fun p => (c :: p.1, p.2) := by
  rw [cut?, cutFrom?, cutFrom?_eq]
  simp only [List.isPrefixOf_iff_prefix, List.reverse_nil, List.reverse_cons, List.nil_append,
    List.singleton_append]

/-- A cut loses nothing but one separator. -/
theorem append_of_cut? {t sep first rest : Text} (h : t.cut? sep = some (first, rest)) :
    t = first ++ sep ++ rest := by
  induction t generalizing first with
  | nil =>
    rw [cut?_nil] at h
    split at h <;> simp_all
  | cons c t ih =>
    rw [cut?_cons] at h
    split at h
    case isTrue hp =>
      obtain ⟨tail, ht⟩ := hp
      simp only [← ht, List.drop_left, Option.some.injEq, Prod.mk.injEq] at h
      simp [← ht, ← h.1, ← h.2]
    case isFalse =>
      obtain ⟨p, hp, he⟩ := Option.map_eq_some_iff.1 h
      cases he
      simp [ih hp]

/-- A text can be cut exactly where it holds the separator. -/
theorem cut?_eq_none_iff {t sep : Text} : t.cut? sep = none ↔ ¬ sep <:+: t := by
  induction t with
  | nil => rw [cut?_nil]; simp
  | cons c t ih =>
    rw [cut?_cons, List.infix_cons_iff]
    split <;> simp_all

/-- Both sides of a cut are shorter than the text. -/
theorem length_lt_of_cut? {t sep first rest : Text} (hs : sep ≠ [])
    (h : t.cut? sep = some (first, rest)) :
    first.length < t.length ∧ rest.length < t.length := by
  have hl := List.length_pos_iff.2 hs
  rw [append_of_cut? h]
  simp only [List.length_append]
  omega

/-- The text before the first `sep` and the text from there to the next one, or to the end. What
follows a second `sep` is dropped. -/
def firstTwo? (t sep : Text) : Option (Text × Text) :=
  (t.cut? sep).map fun p => (p.1, ((cut? p.2 sep).map Prod.fst).getD p.2)

theorem length_lt_of_firstTwo? {t sep first second : Text} (hs : sep ≠ [])
    (h : t.firstTwo? sep = some (first, second)) :
    first.length < t.length ∧ second.length < t.length := by
  obtain ⟨⟨a, rest⟩, hc, he⟩ := Option.map_eq_some_iff.1 h
  cases he
  obtain ⟨ha, hr⟩ := length_lt_of_cut? hs hc
  refine ⟨ha, ?_⟩
  cases hn : rest.cut? sep with
  | none => simpa [hn] using hr
  | some q => simpa [hn] using Nat.lt_trans (length_lt_of_cut? hs hn).1 hr

end Eligibility.Text

namespace Eligibility

/-- Rule texts, attribute names and literals, character by character. -/
abbrev Text := List Char

namespace Text

/-- What trimming removes: the space and every control character below it. -/
def isBlank (c : Char) : Bool := c ≤ ' '

/-- The text without the blanks at its two ends. Blanks of other scripts stay. -/
def trim (t : Text) : Text :=
  ((t.dropWhile isBlank).reverse.dropWhile isBlank).reverse

def includes : (t part : Text) → Bool
  | [], part => part.isEmpty
  | c :: t, part => part.isPrefixOf (c :: t) || includes t part

theorem includes_iff {t part : Text} : t.includes part = true ↔ part <:+: t := by
  induction t with
  | nil => simp [includes]
  | cons c t ih => simp [includes, ih, List.infix_cons_iff]

theorem length_dropWhile_le (p : Char → Bool) (t : Text) :
    (t.dropWhile p).length ≤ t.length :=
  (List.dropWhile_sublist p).length_le

theorem length_trim_le (t : Text) : t.trim.length ≤ t.length := by
  have h := length_dropWhile_le isBlank (t.dropWhile isBlank).reverse
  have h' := length_dropWhile_le isBlank t
  simp only [trim, List.length_reverse] at h ⊢
  omega

/-- Trimming cuts blanks off the two ends and nothing else. -/
theorem trim_spec (t : Text) : ∃ before after : Text,
    t = before ++ t.trim ++ after ∧ before.all isBlank = true ∧ after.all isBlank = true := by
  refine ⟨t.takeWhile isBlank, ((t.dropWhile isBlank).reverse.takeWhile isBlank).reverse,
    ?_, by simp, by simp⟩
  have h := congrArg List.reverse
    (List.takeWhile_append_dropWhile (p := isBlank) (l := (t.dropWhile isBlank).reverse))
  rw [List.reverse_append, List.reverse_reverse] at h
  rw [trim, List.append_assoc, h, List.takeWhile_append_dropWhile]

end Text

end Eligibility

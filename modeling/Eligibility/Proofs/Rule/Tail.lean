import Eligibility.Proofs.Rule.Depth
import Eligibility.Proofs.Rule.Shape

namespace Eligibility

variable {s x : Text} {c : Connective} {l r u : Tree}

theorem Tree.exists_join_of_connective? (h : u.connective? = some c) : ∃ l r, u = .join c l r := by
  cases u with
  | leaf t => cases h
  | join d l r =>
    cases h
    exact ⟨l, r, rfl⟩

theorem Connective.symbol_ne_nil (hc : c = .and ∨ c = .or) : c.symbol ≠ [] := by
  rcases hc with rfl | rfl
  · exact List.cons_ne_nil _ _
  · exact List.cons_ne_nil _ _

theorem Connective.isBlank_of_mem_symbol (hc : c = .and ∨ c = .or) {d : Char}
    (hd : d ∈ c.symbol) : Text.isBlank d = false := by
  have h : c.symbol.all (fun d => !Text.isBlank d) = true := by
    rcases hc with rfl | rfl
    · rfl
    · rfl
  rw [← Bool.not_eq_true']
  exact List.all_eq_true.1 h d hd

namespace Rule

/-- A part added behind the first two of a text leaves it the rule that it is, if the text is still
split at the same connective. -/
theorem parse_append_part (hc : c = .and ∨ c = .or) (h : parse s = .ok (.join c l r))
    (hx : x.trim ≠ [])
    (hend : ∀ left right, s.trim.firstTwo? c.spaced = some (left, right) →
      ¬ ' ' :: c.symbol <:+ right)
    (hsplit : ∀ left right, (Text.trim (s ++ c.spaced ++ x)).firstTwo? c.spaced =
      some (left, right) → split? (Text.trim (s ++ c.spaced ++ x)) = some (c, left, right)) :
    parse (s ++ c.spaced ++ x) = .ok (.join c l r) := by
  obtain ⟨left, right, hf, hl, hr⟩ := exists_firstTwo?_of_parse h
  obtain ⟨after, more, hafter, ht⟩ :=
    Text.exists_trim_append (trim_ne_nil_of_parse h) hx c.spaced
  obtain ⟨pad, hpad, hparts⟩ :=
    Text.firstTwo?_append_spaced (Connective.symbol_ne_nil hc)
      (fun _ => Connective.isBlank_of_mem_symbol hc) hf (hend left right hf) hafter more
  have hr' : parse (right ++ pad) = .ok r := (parse_pad (b := []) rfl hpad).trans hr
  apply parse_join (hsplit left (right ++ pad) ?_) hl hr'
  rw [ht]
  exact hparts

/-- The second part of a disjunction is one condition, and so does not end in an `OR`. -/
theorem not_or_suffix_of_firstTwo? {left right : Text} (h : parse s = .ok u)
    (ha : ¬ Connective.and.spaced <:+: s.trim)
    (hf : s.trim.firstTwo? Connective.or.spaced = some (left, right)) :
    ¬ ' ' :: Connective.or.symbol <:+ right := by
  obtain ⟨l, r, -, -, hr⟩ := exists_parts_of_parse (split?_eq_or ha hf) h
  have har : ¬ Connective.and.spaced <:+: right := by
    intro hi
    exact ha (hi.trans (Text.infix_of_firstTwo? hf).2)
  have hor := (Text.not_infix_of_firstTwo? Connective.or.spaced_ne_nil hf).2
  obtain ⟨v, rfl, -⟩ := exists_leaf_of_parse har hor hr
  obtain ⟨rfl, hv, -⟩ := parse_eq_ok_leaf_iff.1 hr
  intro hs
  have hlast : ∀ d, right.getLast? = some d → Text.isBlank d = false := by
    obtain ⟨z, rfl⟩ := hs
    intro d hd
    rw [List.getLast?_append] at hd
    cases hd
    rfl
  obtain ⟨front, hfront⟩ := Text.trim_isSuffix hlast
  have hs' : ' ' :: Connective.or.symbol <:+ front ++ right.trim := by rwa [hfront]
  exact not_suffix_append_of_isCondition (x := [' ', 'O']) hv rfl hs'

/-- What stands behind the second part of a rule is dropped, whatever it is. An `AND` behind a
conjunction and an `OR` behind a disjunction change nothing, as long as no earlier `AND` arises. -/
theorem parse_ignores_third_part (h : parse s = .ok u) (hx : ∃ d ∈ x, Text.isBlank d = false) :
    (u.connective? = some .and → ¬ ' ' :: Connective.and.symbol <:+ s.trim →
      parse (s ++ Connective.and.spaced ++ x) = .ok u) ∧
    (u.connective? = some .or →
      ¬ Connective.and.spaced <:+: Text.trim (s ++ Connective.or.spaced ++ x) →
      parse (s ++ Connective.or.spaced ++ x) = .ok u) := by
  obtain ⟨d, hd, hblank⟩ := hx
  have hx' : x.trim ≠ [] := List.ne_nil_of_mem (Text.mem_trim hd hblank)
  apply And.intro
  · intro hu hs
    obtain ⟨l, r, rfl⟩ := Tree.exists_join_of_connective? hu
    apply parse_append_part (.inl rfl) h hx'
    · intro left right hf
      exact Text.not_suffix_of_firstTwo? hf hs
    · intro left right
      exact split?_eq_and
  · intro hu ha
    obtain ⟨l, r, rfl⟩ := Tree.exists_join_of_connective? hu
    have hs : ¬ Connective.and.spaced <:+: s.trim := by
      obtain ⟨after, more, -, ht⟩ :=
        Text.exists_trim_append (trim_ne_nil_of_parse h) hx' Connective.or.spaced
      intro hi
      rw [ht, List.append_assoc, List.append_assoc] at ha
      exact ha (List.infix_append_of_infix_left hi)
    apply parse_append_part (.inr rfl) h hx'
    · intro left right hf
      exact not_or_suffix_of_firstTwo? h hs hf
    · intro left right
      exact split?_eq_or ha

/-- The first text is padded and drops a part already, and in the second one names are spelled like
connectives. -/
theorem parse_ignores_third_parts_of_two :
    (parse "\t a > 1 AND b = 'x' OR c < 3 OR ? ".toList = .ok (.and (.leaf "a > 1".toList)
        (.or (.leaf "b = 'x'".toList) (.leaf "c < 3".toList))) ∧
      parse ("\t a > 1 AND b = 'x' OR c < 3 OR ? ".toList ++ Connective.and.spaced ++
          " no rule OR ".toList) = .ok (.and (.leaf "a > 1".toList)
        (.or (.leaf "b = 'x'".toList) (.leaf "c < 3".toList)))) ∧
    parse "AND > 1 OR OR < 2\n".toList =
        .ok (.or (.leaf "AND > 1".toList) (.leaf "OR < 2".toList)) ∧
      parse ("AND > 1 OR OR < 2\n".toList ++ Connective.or.spaced ++ " ( AND".toList) =
        .ok (.or (.leaf "AND > 1".toList) (.leaf "OR < 2".toList)) := by
  have hand : parse "\t a > 1 AND b = 'x' OR c < 3 OR ? ".toList = .ok (.and (.leaf "a > 1".toList)
      (.or (.leaf "b = 'x'".toList) (.leaf "c < 3".toList))) :=
    parse_eq_ok_of_parseWithin (by decide)
  have hor : parse "AND > 1 OR OR < 2\n".toList =
      .ok (.or (.leaf "AND > 1".toList) (.leaf "OR < 2".toList)) :=
    parse_eq_ok_of_parseWithin (by decide)
  refine ⟨⟨hand, ?_⟩, hor, ?_⟩
  · exact (parse_ignores_third_part hand ⟨'n', by decide, rfl⟩).1 rfl (by decide)
  · exact (parse_ignores_third_part hor ⟨'(', by decide, rfl⟩).2 rfl (by decide)

end Rule

end Eligibility

import Eligibility.Proofs.Rule.Outline

namespace Eligibility.Rule

variable {n : Nat} {s t : Text} {l r u : Tree}

/-- Reads a text with no more than `n` splits, one inside the other. -/
def parseWithin : (n : Nat) → Text → Except ParseError Tree
  | 0, t => readLeaf t.trim
  | n + 1, t =>
    match split? t.trim with
    | some (c, left, right) =>
      (parseWithin n left).bind fun l => (parseWithin n right).bind fun r => .ok (.join c l r)
    | none => readLeaf t.trim

theorem parse_eq_parseWithin_succ (h : ∀ p ∈ parts t, parse p = parseWithin n p) :
    parse t = parseWithin (n + 1) t := by
  rw [parseWithin]
  rw [parts] at h
  cases hs : split? t.trim with
  | none => exact parse_eq_leaf hs
  | some s =>
    rw [hs] at h
    rw [parse_eq_bind hs, h s.2.1 List.mem_cons_self, h s.2.2 (List.mem_pair.2 (.inr rfl))]

/-- Two splits, one inside the other, are enough for any text. -/
theorem parse_eq_parseWithin (t : Text) : parse t = parseWithin 2 t := by
  apply parse_eq_parseWithin_succ
  intro p hp
  apply parse_eq_parseWithin_succ
  intro q hq
  obtain ⟨ha, ho⟩ := mem_parts hq
  exact parse_eq_readLeaf ha (ho (Text.not_infix_trim (mem_parts hp).1))

theorem parse_eq_ok_of_parseWithin (h : parseWithin 2 t = .ok u) : parse t = .ok u :=
  (parse_eq_parseWithin t).trans h

theorem trim_ne_nil_of_parse (h : parse t = .ok u) : t.trim ≠ [] := by
  intro ht
  rw [← parse_trim, ht, parse_eq_parseWithin] at h
  cases h

/-- There is nothing to trim where the texts of two rules are joined. -/
theorem trim_join_of_parse (hs : parse s = .ok l) (ht : parse t = .ok r) (m : Text) :
    Text.trim (s.trim ++ m ++ t.trim) = s.trim ++ m ++ t.trim := by
  have hs' := trim_ne_nil_of_parse hs
  have ht' := trim_ne_nil_of_parse ht
  exact (s.trimmed_trim.join hs' t.trimmed_trim ht' m).trim_eq

end Eligibility.Rule

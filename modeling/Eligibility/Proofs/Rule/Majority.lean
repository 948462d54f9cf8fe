import Eligibility.Proofs.Rule.Spine

namespace Eligibility.Rule

variable {ss ts : List Text} {c d : Connective} {u : Tree} {us : List Tree}

/-- Two texts of one and the same rule. -/
def ReadAlike (s t : Text) : Prop := ∃ u, parse s = .ok u ∧ parse t = .ok u

theorem ReadAlike.of_parseWithin {s t : Text} (hs : parseWithin 2 s = .ok u)
    (ht : parseWithin 2 t = .ok u) : ReadAlike s t :=
  ⟨u, parse_eq_ok_of_parseWithin hs, parse_eq_ok_of_parseWithin ht⟩

theorem joinAll_eq_iff : joinAll c (u :: us) = joinAll d (u :: us) ↔ us = [] ∨ c = d := by
  constructor
  · intro h
    rcases List.eq_nil_or_concat' us with rfl | ⟨vs, v, rfl⟩
    · exact .inl rfl
    · rw [joinAll_concat, joinAll_concat] at h
      injection h with hc
      exact .inr hc
  · rintro (rfl | rfl)
    · rfl
    · rfl

/-- Where the texts of two lists are of the same rules, only the connectives chosen can differ. -/
theorem combine_eq_combine_iff (hs : ss.map parse = us.map .ok) (ht : ts.map parse = us.map .ok) :
    combine ss = combine ts ↔ us.length ≤ 1 ∨ chooseConnective ss = chooseConnective ts := by
  cases us with
  | nil =>
    rw [List.map_eq_nil_iff.1 hs, List.map_eq_nil_iff.1 ht]
    exact ⟨fun _ => .inr rfl, fun _ => rfl⟩
  | cons u us =>
    rw [combine_eq_ok hs, combine_eq_ok ht, Except.ok.injEq, joinAll_eq_iff, List.length_cons,
      Nat.succ_le_succ_iff, Nat.le_zero, List.length_eq_zero_iff]

theorem exists_map_of_readAlike (h : List.Forall₂ ReadAlike ss ts) : ∃ us : List Tree,
    us.length = ss.length ∧ ss.map parse = us.map .ok ∧ ts.map parse = us.map .ok := by
  induction h with
  | nil => exact ⟨[], rfl, rfl, rfl⟩
  | cons hu _ ih =>
    obtain ⟨u, hs, ht⟩ := hu
    obtain ⟨us, hl, hss, hts⟩ := ih
    refine ⟨u :: us, congrArg Nat.succ hl, ?_, ?_⟩
    · rw [List.map_cons, hs, hss, List.map_cons]
    · rw [List.map_cons, ht, hts, List.map_cons]

/-- Two lists of texts that are read alike are combined into the same trees, joined by the
connective that each list chooses from its texts as they were written. What reading drops from a
text counts only where it changes that choice. -/
theorem combine_eq_iff_of_readAlike (h : List.Forall₂ ReadAlike ss ts) :
    (combine ss = combine ts ↔ ss.length ≤ 1 ∨ chooseConnective ss = chooseConnective ts) ∧
    (ss ≠ [] → ∃ us : List Tree, ss.map parse = us.map .ok ∧
      combine ss = .ok (joinAll (chooseConnective ss) us) ∧
      combine ts = .ok (joinAll (chooseConnective ts) us)) := by
  obtain ⟨us, hl, hs, ht⟩ := exists_map_of_readAlike h
  constructor
  · rw [← hl]
    exact combine_eq_combine_iff hs ht
  · intro hne
    cases us with
    | nil => exact absurd (List.map_eq_nil_iff.1 hs) hne
    | cons u us => exact ⟨u :: us, hs, combine_eq_ok hs, combine_eq_ok ht⟩

theorem combine_drops_third_part :
    List.Forall₂ ReadAlike ["a > 1 AND b > 2".toList, "c > 3".toList]
      ["a > 1 AND b > 2 AND d > 4".toList, " c > 3".toList] ∧
    combine ["a > 1 AND b > 2".toList, "c > 3".toList] =
      combine ["a > 1 AND b > 2 AND d > 4".toList, " c > 3".toList] := by
  have h : List.Forall₂ ReadAlike ["a > 1 AND b > 2".toList, "c > 3".toList]
      ["a > 1 AND b > 2 AND d > 4".toList, " c > 3".toList] :=
    .cons (.of_parseWithin (u := .and (.leaf "a > 1".toList) (.leaf "b > 2".toList))
        (by decide) (by decide))
      (.cons (.of_parseWithin (u := .leaf "c > 3".toList) (by decide) (by decide)) .nil)
  exact ⟨h, (combine_eq_iff_of_readAlike h).1.2 (.inr (by decide))⟩

/-- A part that is dropped in reading a text can turn the `AND` between two rules into an `OR`. -/
theorem dropped_part_changes_join :
    List.Forall₂ ReadAlike ["a > 1 AND b > 2".toList, "c > 3 OR d > 4".toList]
      ["a > 1 AND b > 2 AND e > 5 OR f > 6".toList, "c > 3 OR d > 4".toList] ∧
    combine ["a > 1 AND b > 2".toList, "c > 3 OR d > 4".toList] ≠
      combine ["a > 1 AND b > 2 AND e > 5 OR f > 6".toList, "c > 3 OR d > 4".toList] := by
  have h : List.Forall₂ ReadAlike ["a > 1 AND b > 2".toList, "c > 3 OR d > 4".toList]
      ["a > 1 AND b > 2 AND e > 5 OR f > 6".toList, "c > 3 OR d > 4".toList] :=
    .cons (.of_parseWithin (u := .and (.leaf "a > 1".toList) (.leaf "b > 2".toList))
        (by decide) (by decide))
      (.cons (.of_parseWithin (u := .or (.leaf "c > 3".toList) (.leaf "d > 4".toList))
        (by decide) (by decide)) .nil)
  obtain ⟨us, hl, hs, ht⟩ := exists_map_of_readAlike h
  refine ⟨h, fun he => ?_⟩
  rcases (combine_eq_combine_iff hs ht).1 he with hl' | hchoice
  · rw [hl] at hl'
    exact absurd hl' (by decide)
  · exact absurd hchoice (by decide)

end Eligibility.Rule

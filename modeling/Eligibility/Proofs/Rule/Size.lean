import Eligibility.Proofs.Rule.Image
import Eligibility.Proofs.Rule.Spine
import Mathlib.Order.Bounds.Basic

namespace Eligibility

variable {d : Nat} {t u v : Tree} {us : List Tree} {ts : List Text}

theorem Tree.depth_pos (t : Tree) : 1 ≤ t.depth := by
  cases t with
  | leaf s => exact Nat.le_refl 1
  | join c l r => exact Nat.le_add_right 1 _

theorem Tree.leafCount_pos (t : Tree) : 1 ≤ t.leafCount := by
  induction t with
  | leaf s => exact Nat.le_refl 1
  | join c l r ihl ihr => exact ihl.trans (Nat.le_add_right _ _)

namespace Rule

/-- The number of joins above each of `n` trees that are joined from left to right. The first two
trees are the sides of the lowest join. -/
def joinsAbove (n : Nat) : (i : Nat) → Nat
  | 0 => n - 1
  | i + 1 => n - (i + 1)

theorem joinsAbove_le (n i : Nat) : joinsAbove n i ≤ n - 1 := by
  cases i with
  | zero => exact Nat.le_refl _
  | succ i => exact Nat.sub_le_sub_left (Nat.le_add_left 1 i) n

/-- How deep each of several trees reaches when they are joined from left to right. -/
def reaches (us : List Tree) : Set Nat :=
  {d | ∃ i u, us[i]? = some u ∧ d = u.depth + joinsAbove us.length i}

/-- How deep each of several trees reaches when they are joined to a first one. -/
def reachesBehind (us : List Tree) : Set Nat :=
  {d | ∃ i u, us[i]? = some u ∧ d = u.depth + (us.length - i)}

theorem mem_reaches_cons :
    d ∈ reaches (u :: us) ↔ d = u.depth + us.length ∨ d ∈ reachesBehind us := by
  apply Iff.intro
  · intro ⟨i, v, hv, hd⟩
    cases i with
    | zero =>
      cases hv
      exact .inl hd
    | succ i =>
      rw [joinsAbove, List.length_cons, Nat.add_sub_add_right] at hd
      exact .inr ⟨i, v, hv, hd⟩
  · rintro (hd | ⟨i, v, hv, hd⟩)
    · exact ⟨0, u, rfl, hd⟩
    · refine ⟨i + 1, v, hv, ?_⟩
      rw [joinsAbove, List.length_cons, Nat.add_sub_add_right]
      exact hd

theorem mem_reachesBehind_cons :
    d ∈ reachesBehind (v :: us) ↔ d = v.depth + (us.length + 1) ∨ d ∈ reachesBehind us := by
  apply Iff.intro
  · intro ⟨i, w, hw, hd⟩
    cases i with
    | zero =>
      cases hw
      exact .inl hd
    | succ i =>
      rw [List.length_cons, Nat.add_sub_add_right] at hd
      exact .inr ⟨i, w, hw, hd⟩
  · rintro (hd | ⟨i, w, hw, hd⟩)
    · exact ⟨0, v, rfl, hd⟩
    · refine ⟨i + 1, w, hw, ?_⟩
      rw [List.length_cons, Nat.add_sub_add_right]
      exact hd

/-- The tree that reaches deepest gives the depth of all that are joined. -/
theorem isGreatest_depth_joinAll (c : Connective) (u : Tree) (us : List Tree) :
    IsGreatest (reaches (u :: us)) (joinAll c (u :: us)).depth := by
  -- The lowest join takes the place of its two sides, with one join less above it.
  induction us generalizing u with
  | nil =>
    apply And.intro
    · exact mem_reaches_cons.2 (.inl rfl)
    · intro d hd
      rcases mem_reaches_cons.1 hd with rfl | ⟨i, v, hv, -⟩
      · exact Nat.le_refl _
      · cases hv
  | cons v us ih =>
    obtain ⟨hmem, hle⟩ := ih (.join c u v)
    have hfirst := hle (mem_reaches_cons.2 (.inl rfl))
    change IsGreatest _ (joinAll c (.join c u v :: us)).depth
    rw [Tree.depth] at hfirst
    apply And.intro
    · rw [mem_reaches_cons, mem_reachesBehind_cons, List.length_cons]
      rcases mem_reaches_cons.1 hmem with h | h
      · rw [h, Tree.depth]
        omega
      · exact .inr (.inr h)
    · intro d hd
      rw [mem_reaches_cons, mem_reachesBehind_cons, List.length_cons] at hd
      rcases hd with hd | hd | hd
      · omega
      · omega
      · exact hle (mem_reaches_cons.2 (.inr hd))

theorem leaves_foldl (c : Connective) (u : Tree) (us : List Tree) :
    (us.foldl (.join c) u).leaves = u.leaves ++ us.flatMap Tree.leaves := by
  induction us generalizing u with
  | nil => exact (List.append_nil _).symm
  | cons v us ih => rw [List.foldl_cons, ih, Tree.leaves, List.flatMap_cons, List.append_assoc]

theorem leaves_joinAll (c : Connective) (u : Tree) (us : List Tree) :
    (joinAll c (u :: us)).leaves = (u :: us).flatMap Tree.leaves := leaves_foldl c u us

theorem length_flatMap_leaves (h : ∀ u ∈ us, u.leafCount ≤ 4) :
    us.length ≤ (us.flatMap Tree.leaves).length ∧
      (us.flatMap Tree.leaves).length ≤ 4 * us.length := by
  induction us with
  | nil => exact ⟨Nat.le_refl 0, Nat.le_refl 0⟩
  | cons u us ih =>
    have hu := h u List.mem_cons_self
    have hpos := u.leafCount_pos
    obtain ⟨hlow, hhigh⟩ := ih fun v hv => h v (List.mem_cons_of_mem u hv)
    rw [Tree.leafCount_eq_length] at hu hpos
    rw [List.flatMap_cons, List.length_append, List.length_cons]
    omega

theorem size_le_of_map_parse (h : ts.map parse = us.map .ok) (hu : u ∈ us) :
    u.depth ≤ 3 ∧ u.leafCount ≤ 4 := by
  have hm := List.mem_map_of_mem (f := Except.ok (ε := ParseError)) hu
  rw [← h] at hm
  obtain ⟨t, -, ht⟩ := List.mem_map.1 hm
  exact (shape_of_parse ht).size_le

/-- However long the texts are, it is by their number that the size of what they are combined into
is bounded. The operands are those of the single rules, one rule after the other, and the depth is
what the deepest of the rules reaches below the joins above it. -/
theorem combine_size_bounded (h : combine ts = .ok t) : ∃ us : List Tree,
    ts.map parse = us.map .ok ∧
    (ts.length ≤ t.depth ∧ t.depth ≤ ts.length + 2) ∧
    (ts.length ≤ t.leafCount ∧ t.leafCount ≤ 4 * ts.length) ∧
    t.leaves = us.flatMap Tree.leaves ∧
    IsGreatest {d | ∃ i u, us[i]? = some u ∧ d = u.depth + joinsAbove ts.length i} t.depth := by
  obtain ⟨v, vs, hvs, rfl⟩ := exists_trees_of_combine h
  have hlen : ts.length = (v :: vs).length := by
    rw [← List.length_map (f := parse), hvs, List.length_map]
  have hsize {u : Tree} (hu : u ∈ v :: vs) := size_le_of_map_parse hvs hu
  have hgreatest := isGreatest_depth_joinAll (chooseConnective ts) v vs
  have hleaves := leaves_joinAll (chooseConnective ts) v vs
  refine ⟨v :: vs, hvs, ⟨?_, ?_⟩, ?_, hleaves, ?_⟩
  · have hfirst := hgreatest.2 (mem_reaches_cons.2 (.inl rfl))
    have hpos := v.depth_pos
    rw [hlen, List.length_cons]
    omega
  · obtain ⟨i, u, hu, hd⟩ := hgreatest.1
    have hdepth := (hsize (List.mem_of_getElem? hu)).1
    have habove := joinsAbove_le (v :: vs).length i
    rw [List.length_cons] at habove hd
    rw [hlen, hd, List.length_cons]
    omega
  · rw [hlen, Tree.leafCount_eq_length, hleaves]
    exact length_flatMap_leaves fun u hu => (hsize hu).2
  · rw [hlen]
    exact hgreatest

/-- The second rule reaches as deep as one of three rules can. -/
theorem combine_size_bounded_of_three_rules : ∃ root,
    combine ["a > 1".toList, "b > 2 OR c > 3 AND d > 4".toList, "e = 5".toList] = .ok root ∧
    root.depth = 5 ∧ root.leaves = ["a > 1".toList, "b > 2".toList, "c > 3".toList,
      "d > 4".toList, "e = 5".toList] := by
  have hp : ["a > 1".toList, "b > 2 OR c > 3 AND d > 4".toList, "e = 5".toList].map parse =
      [.leaf "a > 1".toList, .and (.or (.leaf "b > 2".toList) (.leaf "c > 3".toList))
        (.leaf "d > 4".toList), .leaf "e = 5".toList].map .ok := by
    simp only [List.map_cons, List.map_nil, parse_eq_parseWithin]
    decide
  have hroot := combine_eq_ok hp
  obtain ⟨us, hus, ⟨-, hhigh⟩, -, hleaves, hgreatest⟩ := combine_size_bounded hroot
  have he := (List.map_inj_right fun _ _ => Except.ok.inj).1 (hp.symm.trans hus)
  subst he
  exact ⟨_, hroot, Nat.le_antisymm hhigh (hgreatest.2 ⟨1, _, rfl, rfl⟩), hleaves⟩

end Rule

end Eligibility

import Eligibility.Attributes
import Mathlib.Data.List.Induction

namespace Eligibility.Attributes

variable {a b : Attributes} {pairs : List (Text × Value)} {name : Text}

theorem nodup_toList (a : Attributes) : a.toList.Nodup := by
  apply (distinct_of_sorted a.sorted).imp
  intro p q hne heq
  exact hne (congrArg Prod.fst heq)

theorem mem_names_iff : name ∈ a.toList.map Prod.fst ↔ ∃ value, a.get? name = some value := by
  simp only [List.mem_map, get?_eq_some_iff]
  constructor
  · rintro ⟨e, he, rfl⟩
    exact ⟨e.2, he⟩
  · rintro ⟨value, hv⟩
    exact ⟨(name, value), hv, rfl⟩

theorem nodup_names (a : Attributes) : (a.toList.map Prod.fst).Nodup :=
  List.pairwise_map.2 (distinct_of_sorted a.sorted)

/-- Attributes with the same value for each name are the same: their order is that of the names. -/
theorem eq_of_get? (h : ∀ name, a.get? name = b.get? name) : a = b := by
  have hperm : a.toList.Perm b.toList := by
    rw [List.perm_ext_iff_of_nodup a.nodup_toList b.nodup_toList]
    intro e
    rw [← get?_eq_some_iff, h, get?_eq_some_iff]
  have hentries : a.toList = b.toList := by
    apply List.Perm.eq_of_pairwise _ a.sorted b.sorted hperm
    intro p q _ _ hpq hqp
    exact absurd hqp (List.lt_asymm hpq)
  cases a
  cases b
  cases hentries
  rfl

/-- Of pairs with one name, the last one counts. -/
theorem get?_ofList (pairs : List (Text × Value)) (name : Text) :
    (ofList pairs).get? name = valueIn? name pairs.reverse := by
  induction pairs using List.reverseRecOn with
  | nil => rfl
  | append_singleton pairs p ih =>
    rw [ofList_append, List.foldl_cons, List.foldl_nil, get?_insert, ih, List.reverse_append]
    rfl

theorem ofList_of_perm (h : pairs.Perm a.toList) : ofList pairs = a := by
  have hdistinct : pairs.reverse.Pairwise fun p q => p.1 ≠ q.1 := by
    rw [(pairs.reverse_perm.trans h).pairwise_iff Ne.symm]
    exact distinct_of_sorted a.sorted
  apply eq_of_get?
  intro name
  apply Option.ext
  intro v
  rw [get?_ofList, valueIn?_eq_some_iff_of_distinct hdistinct, List.mem_reverse, h.mem_iff,
    get?_eq_some_iff]

end Eligibility.Attributes

import Eligibility.Proofs.Condition.Comparison
import Eligibility.Proofs.Tree.Visit

namespace Eligibility

variable {a : Attributes} {s : Text} {r : Bool} {t : Tree}

/-- What a condition comes to if its attribute has a value of the kind that it asks for. An integer
is compared with the 64-bit integer behind the comparator, to which an equals sign right behind the
`>` or the `<` belongs, and a text with the expected one. What stands around the comparator counts
as stripped. -/
inductive Compared (a : Attributes) : (condition : Text) → (result : Bool) → Prop
  | order {front back threshold name numeral : Text} {d : Char} {o : Order} {n v : Int64}
    (hp : Comparison.Picks front d back)
    (hc : Comparator.ofText? (d :: back) = some (.order o, threshold))
    (hnumeral : threshold.Strips numeral) (hn : Text.Denotes numeral n.toInt)
    (hname : front.Strips name) (hv : a.get? name = some (.int v)) :
    Compared a (front ++ d :: back) (o.holds v.toInt n.toInt)
  | equality {front back name expected t : Text} (hp : Comparison.Picks front '=' back)
    (hexpected : back.Strips expected) (hname : front.Strips name)
    (ht : a.get? name = some (.text t)) :
    Compared a (front ++ '=' :: back) (t == expected.filter (· ≠ '\''))

namespace Comparison

theorem exists_int_or_refuse (a : Attributes) (o : Order) (name threshold : Text) :
    (∃ n v, threshold? threshold = some n ∧ a.get? name = some (.int v)) ∨
      ∃ e, (order o name threshold).checkM a = .refuse e := by
  rw [checkM]
  cases threshold? threshold with
  | none => exact .inr ⟨_, rfl⟩
  | some n =>
    cases a.get? name with
    | none => exact .inr ⟨_, rfl⟩
    | some v =>
      cases v with
      | int v => exact .inl ⟨n, v, rfl, rfl⟩
      | text t => exact .inr ⟨_, rfl⟩

theorem exists_text_or_refuse (a : Attributes) (name expected : Text) :
    (∃ t, a.get? name = some (.text t)) ∨
      ∃ e, (equality name expected).checkM a = .refuse e := by
  rw [checkM]
  cases a.get? name with
  | none => exact .inr ⟨_, rfl⟩
  | some v =>
    cases v with
    | int v => exact .inr ⟨_, rfl⟩
    | text t => exact .inl ⟨t, rfl⟩

end Comparison

theorem Compared.evaluateConditionM_eq (h : Compared a s r) : evaluateConditionM s a = pure r := by
  cases h with
  | order hp hc hnumeral hn hname hv =>
    rw [← Text.strips_iff.1 hnumeral] at hn
    rw [← Text.strips_iff.1 hname] at hv
    rcases hp.ofText_cases with ⟨o, threshold, hc', he⟩ | ⟨rfl, -⟩
    · cases hc.symm.trans hc'
      rw [evaluateConditionM, he, Comparison.checkM, Comparison.threshold?_eq_some_iff.2 hn, hv]
    · cases hc
  | equality hp hexpected hname ht =>
    rw [← Text.strips_iff.1 hname] at ht
    rcases hp.ofText_cases with ⟨o, threshold, hc, -⟩ | ⟨-, he⟩
    · cases hc
    · rw [evaluateConditionM, he, Comparison.checkM, ht, Text.strips_iff.1 hexpected]

/-- A condition that is not compared with a value is refused for one reason. -/
theorem compared_or_refuse (s : Text) (a : Attributes) :
    (∃ r, Compared a s r) ∨ ∃ e, evaluateConditionM s a = .refuse e := by
  rcases Comparison.exists_picks_or_unreadable s with ⟨front, d, back, rfl, hp⟩ | he
  · rcases hp.ofText_cases with ⟨o, threshold, hc, he⟩ | ⟨rfl, he⟩
    · rw [evaluateConditionM, he]
      apply (Comparison.exists_int_or_refuse a o front.trim threshold).imp_left
      intro ⟨n, v, hn, hv⟩
      exact ⟨_, .order hp hc (Text.strips_trim _) (Comparison.threshold?_eq_some_iff.1 hn)
        (Text.strips_trim _) hv⟩
    · rw [evaluateConditionM, he]
      apply (Comparison.exists_text_or_refuse a front.trim _).imp_left
      intro ⟨t, ht⟩
      exact ⟨_, .equality hp (Text.strips_trim _) (Text.strips_trim _) ht⟩
  · rw [evaluateConditionM, he]
    exact .inr ⟨_, rfl⟩

theorem events_evaluateConditionM_eq_nil_iff :
    (evaluateConditionM s a).events = [] ↔ ∃ r, Compared a s r := by
  apply Iff.intro
  · intro h
    apply (compared_or_refuse s a).resolve_right
    intro ⟨e, he⟩
    rw [he] at h
    cases h
  · intro ⟨r, hr⟩
    rw [hr.evaluateConditionM_eq]
    rfl

namespace Tree

theorem report_leaf_eq_nil_iff : (leaf s).report a = [] ↔ ∃ r, Compared a s r :=
  events_evaluateConditionM_eq_nil_iff

theorem report_join_eq_nil_iff {c : Connective} {l r : Tree} :
    (join c l r).report a = [] ↔ c = .and ∨ c = .or := by
  apply Iff.intro
  · intro h
    cases c with
    | and => exact .inl rfl
    | or => exact .inr rfl
    | other symbol => cases h
  · rintro (rfl | rfl)
    · rfl
    · rfl

/-- A rule is evaluated silently if no node that is visited has anything to report. -/
theorem events_eq_nil_iff : (t.evaluateM a).events = [] ↔
    ∀ k u, Place.fill k u = t → k.isHidden a = false → u.report a = [] := by
  rw [events_eq_reports, reports, List.flatMap_eq_nil_iff]
  apply Iff.intro
  · intro h k u hk hv
    apply h (k, u)
    rw [List.mem_filter, mem_places_iff, Bool.not_eq_true']
    exact ⟨hk, hv⟩
  · intro h p hp
    rw [List.mem_filter, Bool.not_eq_true'] at hp
    exact h p.1 p.2 (mem_places_iff.1 hp.1) hp.2

/-- A condition reports nothing exactly where it is compared with a value of the right kind, and
then it comes to the result of that comparison. Anywhere else it does not hold, and exactly one
event says so. So a rule that reports nothing has compared each condition that was visited, and
recognized each connective. -/
theorem evaluate_silent_iff (a : Attributes) :
    (∀ s, ((evaluateConditionM s a).events = [] ↔ ∃ r, Compared a s r) ∧
      (∀ r, Compared a s r → evaluateCondition s a = r) ∧
      ((¬ ∃ r, Compared a s r) → evaluateCondition s a = false ∧
        ∃ e, (evaluateConditionM s a).events = [e])) ∧
    ∀ t : Tree, (t.evaluateM a).events = [] ↔
      (∀ k s, Place.fill k (leaf s) = t → k.isHidden a = false → ∃ r, Compared a s r) ∧
      ∀ k c l r, Place.fill k (join c l r) = t → k.isHidden a = false → c = .and ∨ c = .or := by
  apply And.intro
  · intro s
    refine ⟨events_evaluateConditionM_eq_nil_iff, ?_, ?_⟩
    · intro r hr
      rw [evaluateCondition, hr.evaluateConditionM_eq]
      rfl
    · intro h
      obtain ⟨e, he⟩ := (compared_or_refuse s a).resolve_left h
      rw [evaluateCondition, he]
      exact ⟨rfl, e, rfl⟩
  · intro t
    rw [events_eq_nil_iff]
    apply Iff.intro
    · intro h
      apply And.intro
      · intro k s hk hv
        exact report_leaf_eq_nil_iff.1 (h k (leaf s) hk hv)
      · intro k c l r hk hv
        exact report_join_eq_nil_iff.1 (h k (join c l r) hk hv)
    · intro ⟨hleaf, hjoin⟩ k u hk hv
      cases u with
      | leaf s => exact report_leaf_eq_nil_iff.2 (hleaf k s hk hv)
      | join c l r => exact report_join_eq_nil_iff.2 (hjoin k c l r hk hv)

/-- The threshold `z` is not a number, but the condition with it is not visited. -/
theorem evaluate_silent_before_threshold :
    ((or (and (leaf "a>=+07 ".toList) (leaf "b = 'x'".toList)) (leaf "a < z".toList)).evaluateM
        (.ofList [(['a'], .int 8), (['b'], .text ['x'])])).events = [] ∧
    (∃ r, Compared (.ofList [(['a'], .int 8), (['b'], .text ['x'])]) "b = 'x'".toList r) ∧
    (evaluateConditionM "a < z".toList (.ofList [(['a'], .int 8), (['b'], .text ['x'])])).events ≠
      [] ∧
    ¬ ∃ r, Compared (.ofList [(['a'], .int 8), (['b'], .text ['x'])]) "a < z".toList r := by
  have hs : ((or (and (leaf "a>=+07 ".toList) (leaf "b = 'x'".toList))
      (leaf "a < z".toList)).evaluateM
        (.ofList [(['a'], .int 8), (['b'], .text ['x'])])).events = [] := by decide
  have hz : (evaluateConditionM "a < z".toList
      (.ofList [(['a'], .int 8), (['b'], .text ['x'])])).events ≠ [] := by decide
  obtain ⟨hcondition, htree⟩ := evaluate_silent_iff (.ofList [(['a'], .int 8), (['b'], .text ['x'])])
  refine ⟨hs, ?_, hz, fun h => hz ((hcondition _).1.2 h)⟩
  exact ((htree _).1 hs).1 [.left .or (leaf "a < z".toList), .right .and (leaf "a>=+07 ".toList)] _
    rfl (by decide)

end Tree

end Eligibility

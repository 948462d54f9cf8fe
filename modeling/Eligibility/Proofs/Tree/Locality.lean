import Eligibility.Proofs.Condition.Comparison
import Eligibility.Tree.Evaluate

namespace Eligibility

variable {a b : Attributes} {c : Comparison} {s : Text} {t : Tree}

/-- The two have the same value under each of the names, or both have none. -/
def Attributes.AgreeOn (names : Text → Prop) (a b : Attributes) : Prop :=
  ∀ n, names n → a.get? n = b.get? n

theorem Attributes.AgreeOn.mono {names more : Text → Prop} (h : AgreeOn more a b)
    (hs : ∀ n, names n → more n) : AgreeOn names a b :=
  fun n hn => h n (hs n hn)

namespace Comparison

/-- The attribute that a condition's text asks for: the text in front of its first `>`, stripped;
if it holds none, in front of its first `<`; if it holds neither, in front of its first `=`. -/
def Asks (s name : Text) : Prop := ∃ d, PicksOn d name s

theorem checkM_congr (h : a.AgreeOn (c.name? = some ·) b) : c.checkM a = c.checkM b := by
  cases c with
  | order o name threshold => rw [checkM, checkM, h name rfl]
  | equality name expected => rw [checkM, checkM, h name rfl]
  | unreadable condition => rfl

end Comparison

theorem evaluateConditionM_congr (h : a.AgreeOn (Comparison.Asks s) b) :
    evaluateConditionM s a = evaluateConditionM s b :=
  Comparison.checkM_congr (h.mono fun _ => Comparison.exists_picksOn_iff.2)

namespace Tree

/-- An attribute that one of the conditions of a rule asks for. -/
def Asks (t : Tree) (name : Text) : Prop := ∃ s ∈ t.leaves, Comparison.Asks s name

theorem evaluateM_congr (h : a.AgreeOn t.Asks b) : t.evaluateM a = t.evaluateM b := by
  induction t with
  | leaf s => exact evaluateConditionM_congr (h.mono fun n hn => ⟨s, List.mem_singleton_self s, hn⟩)
  | join c l r ihl ihr =>
    have hl := ihl (h.mono fun n ⟨s, hs, hn⟩ => ⟨s, List.mem_append_left _ hs, hn⟩)
    have hr := ihr (h.mono fun n ⟨s, hs, hn⟩ => ⟨s, List.mem_append_right _ hs, hn⟩)
    cases c with
    | and => rw [evaluateM, evaluateM, hl, hr]
    | or => rw [evaluateM, evaluateM, hl, hr]
    | other symbol => rfl

/-- The decision on a rule, and all that is reported on the way to it, depend on no attribute that
the conditions of the rule do not ask for. -/
theorem evaluate_reads_own_attributes (t : Tree) (h : a.AgreeOn t.Asks b) :
    t.evaluate a = t.evaluate b ∧ (t.evaluateM a).events = (t.evaluateM b).events := by
  have he := evaluateM_congr h
  exact ⟨congrArg Logged.answer he, congrArg Logged.events he⟩

/-- The `c` inside the literal is not asked for. -/
theorem evaluate_reads_own_two_attributes :
    Attributes.AgreeOn (or (leaf " a > 2".toList) (leaf "b = 'c = 1'".toList)).Asks
      (.ofList [(['a'], .int 2), (['c'], .int 1)])
      (.ofList [(['d'], .int 4), (['c'], .text ['1']), (['a'], .int 2)]) ∧
    (or (leaf " a > 2".toList) (leaf "b = 'c = 1'".toList)).evaluate
        (.ofList [(['a'], .int 2), (['c'], .int 1)]) =
      (or (leaf " a > 2".toList) (leaf "b = 'c = 1'".toList)).evaluate
        (.ofList [(['d'], .int 4), (['c'], .text ['1']), (['a'], .int 2)]) ∧
    ((or (leaf " a > 2".toList) (leaf "b = 'c = 1'".toList)).evaluateM
        (.ofList [(['a'], .int 2), (['c'], .int 1)])).events =
      ((or (leaf " a > 2".toList) (leaf "b = 'c = 1'".toList)).evaluateM
        (.ofList [(['d'], .int 4), (['c'], .text ['1']), (['a'], .int 2)])).events := by
  have h : Attributes.AgreeOn (or (leaf " a > 2".toList) (leaf "b = 'c = 1'".toList)).Asks
      (.ofList [(['a'], .int 2), (['c'], .int 1)])
      (.ofList [(['d'], .int 4), (['c'], .text ['1']), (['a'], .int 2)]) := by
    rintro n ⟨s, hs, hn⟩
    have ha : (Comparison.ofText " a > 2".toList).name? = some ['a'] := by decide
    have hb : (Comparison.ofText "b = 'c = 1'".toList).name? = some ['b'] := by decide
    rw [Comparison.Asks, Comparison.exists_picksOn_iff] at hn
    rcases List.mem_pair.1 hs with rfl | rfl
    · cases hn.symm.trans ha
      decide
    · cases hn.symm.trans hb
      decide
  exact ⟨h, evaluate_reads_own_attributes _ h⟩

end Tree

end Eligibility

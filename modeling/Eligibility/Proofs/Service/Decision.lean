import Eligibility.Proofs.Rule.Verdict
import Eligibility.Proofs.Service.History

namespace Eligibility

namespace Service

variable {σ : Type} [RuleStore σ] {ts : List Text} {u : Tree} {us : List Tree}

/-- A tree holds of the attributes as the texts do that a service evaluates one by one: where all
of them hold, if they choose `AND`, and where one does, if they choose `OR`. -/
def DecidesAs (u : Tree) (ts : List Text) (a : Attributes) (s : σ) : Prop :=
  ∃ bs : List Bool, ts.map (fun t => (perform (.evaluateRule (some t) (some a)) s).answer) =
      bs.map (fun b => (.ok (.decision b), s)) ∧
    (Rule.chooseConnective ts = .and ∧ u.evaluate a = bs.all id ∨
      Rule.chooseConnective ts = .or ∧ u.evaluate a = bs.any id)

/-- What a service answers if the text it is to evaluate is read with that outcome. -/
def decisionOf (a : Attributes) (x : Except ParseError Tree) : Except Error Answer :=
  (x.map fun u => .decision (u.evaluate a)).mapError fun e => .service (.parse e)

theorem answer_evaluateRule (t : Text) (a : Attributes) (s : σ) :
    (perform (.evaluateRule (some t) (some a)) s).answer = (decisionOf a (Rule.parse t), s) := by
  rw [perform, answer_settle, outcome_evaluateRule]
  dsimp only
  cases Rule.parse t with
  | error e => rfl
  | ok u => rfl

theorem answer_combineStored (s : MemoryStore) (h : Rule.combine s.texts = .ok u) :
    (perform .combineStored s).answer = (.ok (.tree u), s) := by
  rw [answer_combineStored_texts, h]
  rfl

theorem decidesAs_joinAll (h : ts.map Rule.parse = us.map .ok) (hne : us ≠ []) (a : Attributes)
    (s : σ) : DecidesAs (Rule.joinAll (Rule.chooseConnective ts) us) ts a s := by
  refine ⟨us.map (·.evaluate a), ?_, ?_⟩
  · calc ts.map (fun t => (perform (.evaluateRule (some t) (some a)) s).answer)
        = (ts.map Rule.parse).map fun x => (decisionOf a x, s) := by
          rw [List.map_map]
          exact List.map_congr_left fun t _ => answer_evaluateRule t a s
      _ = (us.map .ok).map fun x => (decisionOf a x, s) := by rw [h]
      _ = (us.map (·.evaluate a)).map fun b => (.ok (.decision b), s) := by
          rw [List.map_map, List.map_map]
          rfl
  · rw [List.all_map, List.any_map]
    exact Rule.evaluate_joinAll ts hne a

theorem exists_combine_decidesAs (hne : ts ≠ []) (h : ∀ t ∈ ts, ∃ u, Rule.parse t = .ok u)
    (a : Attributes) (s : σ) : ∃ u, Rule.combine ts = .ok u ∧ DecidesAs u ts a s := by
  obtain ⟨u, us, hus⟩ := Rule.exists_map_parse_eq_ok hne h
  exact ⟨_, Rule.combine_eq_ok hus, decidesAs_joinAll hus (List.cons_ne_nil u us) a s⟩

/-- The rule that texts are combined into holds where the texts hold that a service evaluates one
by one: all of them, or one of them. The same goes for the rule that a service combines from what
its store has accepted, after any calls whatever. -/
theorem combined_decides_as_rules (s : σ) (a : Attributes) :
    (∀ ts, ts ≠ [] → (∀ t ∈ ts, ∃ u, Rule.parse t = .ok u) →
      ∃ u, Rule.combine ts = .ok u ∧ DecidesAs u ts a s) ∧
    ∀ calls, storedTexts calls ≠ [] → (∀ t ∈ storedTexts calls, ∃ u, Rule.parse t = .ok u) →
      (∃ rs, (perform .listRules (storeAfter calls)).answer = (.ok (.rules rs), storeAfter calls) ∧
        rs.map (·.text) = storedTexts calls) ∧
      ∃ u, (perform .combineStored (storeAfter calls)).answer = (.ok (.tree u), storeAfter calls) ∧
        DecidesAs u (storedTexts calls) a (storeAfter calls) := by
  refine ⟨fun ts hne h => exists_combine_decidesAs hne h a s, ?_⟩
  intro calls hne h
  have ht := texts_storeAfter calls
  obtain ⟨u, hu, hd⟩ := exists_combine_decidesAs hne h a (storeAfter calls)
  constructor
  · exact ⟨(storeAfter calls).rules.toList, rfl, ht⟩
  · rw [← ht] at hu
    exact ⟨u, answer_combineStored _ hu, hd⟩

theorem combined_decides_as_two_rules :
    (∀ t ∈ ["a > 1".toList, "b > 2 OR c > 3".toList], ∃ u, Rule.parse t = .ok u) ∧
    (∃ u, Rule.combine ["a > 1".toList, "b > 2 OR c > 3".toList] = .ok u ∧
      DecidesAs u ["a > 1".toList, "b > 2 OR c > 3".toList]
        (Attributes.empty.insert "c".toList (.int 4)) MemoryStore.empty) ∧
    storedTexts [.createRule "x".toList "a > 1".toList, .createRule [] "d > 4".toList,
      .direct (.create "y".toList "b > 2 OR c > 3".toList)] =
        ["a > 1".toList, "b > 2 OR c > 3".toList] ∧
    ∃ u, (perform .combineStored (storeAfter [.createRule "x".toList "a > 1".toList,
        .createRule [] "d > 4".toList,
        .direct (.create "y".toList "b > 2 OR c > 3".toList)])).answer.1 = .ok (.tree u) ∧
      DecidesAs u ["a > 1".toList, "b > 2 OR c > 3".toList]
        (Attributes.empty.insert "c".toList (.int 4))
        (storeAfter [.createRule "x".toList "a > 1".toList, .createRule [] "d > 4".toList,
          .direct (.create "y".toList "b > 2 OR c > 3".toList)]) := by
  have hp : ∀ t ∈ ["a > 1".toList, "b > 2 OR c > 3".toList], ∃ u, Rule.parse t = .ok u := by
    intro t ht
    rcases List.mem_pair.1 ht with rfl | rfl
    · exact ⟨.leaf "a > 1".toList, Rule.parse_eq_ok_of_parseWithin (by decide)⟩
    · exact ⟨.or (.leaf "b > 2".toList) (.leaf "c > 3".toList),
        Rule.parse_eq_ok_of_parseWithin (by decide)⟩
  have hs : storedTexts [.createRule "x".toList "a > 1".toList, .createRule [] "d > 4".toList,
      .direct (.create "y".toList "b > 2 OR c > 3".toList)] =
        ["a > 1".toList, "b > 2 OR c > 3".toList] := by decide
  have h := combined_decides_as_rules MemoryStore.empty
    (Attributes.empty.insert "c".toList (.int 4))
  obtain ⟨_, u, hu, hd⟩ := h.2 _ (hs ▸ List.cons_ne_nil _ _) (hs ▸ hp)
  rw [hs] at hd
  exact ⟨hp, h.1 _ (List.cons_ne_nil _ _) hp, hs, u, congrArg Prod.fst hu, hd⟩

end Service

end Eligibility

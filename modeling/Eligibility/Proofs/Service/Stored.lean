import Eligibility.Proofs.Rule.Spine
import Eligibility.Proofs.Service.History

namespace Eligibility.Service

variable {before after calls : List Call} {c : Call} {t : Text} {ts ts' : List Text}
  {e : ParseError} {x : Except CombineError Tree}

/-- What the call with that number is answered in a run over a memory store that is empty at
first. -/
def answerAt (calls : List Call) (n : Nat) : Option (Except Error Answer) :=
  (run calls MemoryStore.empty).answer.1[n]?

/-- The text of the rule that has been created, if that is what is answered. -/
def createdText? : Except Error Answer → Option Text
  | .ok (.rule r) => some r.text
  | _ => none

theorem createdText?_perform (c : Call) (s : MemoryStore) :
    createdText? (perform c s).answer.1 = storedText? c := by
  cases c with
  | createRule name text =>
    rw [perform, answer_settle, outcome_createRule]
    cases name with
    | nil => rfl
    | cons d name => cases text <;> rfl
  | listRules => rfl
  | combineRules texts =>
    rw [perform, answer_settle, outcome_combineRules]
    cases Rule.combine texts <;> rfl
  | combineStored =>
    rw [answer_combineStored_texts]
    cases Rule.combine s.texts <;> rfl
  | evaluateRule text attributes =>
    rw [perform, answer_settle, outcome_evaluateRule]
    cases text with
    | none => rfl
    | some t =>
      cases attributes with
      | none => rfl
      | some a => cases h : Rule.parse t <;> simp only [h] <;> rfl
  | direct call =>
    cases call with
    | create name text =>
      cases name with
      | nil => rfl
      | cons d name => cases text <;> rfl
    | listAll => rfl

/-- The texts that a run stores are those of the rules that it answers as created. -/
theorem filterMap_createdText? (calls : List Call) (s : MemoryStore) :
    (run calls s).answer.1.filterMap createdText? = storedTexts calls := by
  induction calls generalizing s with
  | nil => rfl
  | cons c calls ih =>
    rw [answer_run_cons, List.filterMap_cons, createdText?_perform, ih, storedTexts, storedTexts,
      List.filterMap_cons]

theorem answerAt_combineStored (before after : List Call) :
    answerAt (before ++ .combineStored :: after) before.length =
      some (combinationOf (Rule.combine (storedTexts before))) := by
  have hs : (run before MemoryStore.empty).answer.2.texts = storedTexts before :=
    texts_storeAfter before
  rw [answerAt, answer_run_at, answer_combineStored_texts, hs]

theorem combinationOf_eq_error_iff {e : CombineError} :
    combinationOf x = .error (.service (.combine e)) ↔ x = .error e := by
  cases x with
  | error e' =>
    constructor
    · intro h
      cases h
      rfl
    · intro h
      cases h
      rfl
  | ok u => exact ⟨nofun, nofun⟩

/-- A text in the middle of what a run stores is there by a call in the middle of the run. -/
theorem storedTexts_eq_append_cons_iff : storedTexts calls = ts ++ t :: ts' ↔
    ∃ earlier c later, calls = earlier ++ c :: later ∧ storedTexts earlier = ts ∧
      storedText? c = some t ∧ storedTexts later = ts' := by
  constructor
  · intro h
    obtain ⟨first, rest, rfl, hfirst, hrest⟩ := List.filterMap_eq_append_iff.1 h
    obtain ⟨idle, c, later, rfl, hidle, hc, hlater⟩ := List.filterMap_eq_cons_iff.1 hrest
    -- The calls right before `c` that store nothing are among the earlier ones.
    refine ⟨first ++ idle, c, later, (List.append_assoc _ _ _).symm, ?_, hc, hlater⟩
    rw [storedTexts, List.filterMap_append, hfirst, List.filterMap_eq_nil_iff.2 hidle,
      List.append_nil]
  · rintro ⟨earlier, c, later, rfl, rfl, hc, rfl⟩
    rw [storedTexts, List.filterMap_append, List.filterMap_cons_some hc]
    rfl

theorem combine_storedTexts_eq_parse_iff :
    Rule.combine (storedTexts calls) = .error (.parse e) ↔
      ∃ earlier c later t, calls = earlier ++ c :: later ∧ storedText? c = some t ∧
        (∀ s ∈ storedTexts earlier, ∃ u, Rule.parse s = .ok u) ∧ Rule.parse t = .error e := by
  rw [Rule.combine_eq_parse_iff, mapM_eq_error_iff]
  constructor
  · rintro ⟨ts, t, ts', hs, hts, ht⟩
    obtain ⟨earlier, c, later, rfl, rfl, hc, _⟩ := storedTexts_eq_append_cons_iff.1 hs
    exact ⟨earlier, c, later, t, rfl, hc, hts, ht⟩
  · rintro ⟨earlier, c, later, t, rfl, hc, hts, ht⟩
    exact ⟨storedTexts earlier, t, storedTexts later,
      storedTexts_eq_append_cons_iff.2 ⟨earlier, c, later, rfl, rfl, hc, rfl⟩, hts, ht⟩

/-- A service that combines what it has stored in a run so far answers with the rule of the texts
in the order of their creation. It fails where there are none, and from the creation of the first
text on that is no rule it fails for good, with the error of that text. -/
theorem combineStored_follows_creations (before after : List Call) :
    (run before MemoryStore.empty).answer.1.filterMap createdText? = storedTexts before ∧
    answerAt (before ++ .combineStored :: after) before.length =
      some (combinationOf (Rule.combine (storedTexts before))) ∧
    (answerAt (before ++ .combineStored :: after) before.length =
      some (.error (.service (.combine .emptyInput))) ↔ storedTexts before = []) ∧
    (∀ e, answerAt (before ++ .combineStored :: after) before.length =
        some (.error (.service (.combine (.parse e)))) ↔
      ∃ earlier c later t, before = earlier ++ c :: later ∧ storedText? c = some t ∧
        (∀ s ∈ storedTexts earlier, ∃ u, Rule.parse s = .ok u) ∧ Rule.parse t = .error e) ∧
    (storedTexts before ≠ [] → (∀ t ∈ storedTexts before, ∃ u, Rule.parse t = .ok u) →
      ∃ u, answerAt (before ++ .combineStored :: after) before.length = some (.ok (.tree u))) := by
  have ha := answerAt_combineStored before after
  refine ⟨filterMap_createdText? before _, ha, ?_, ?_, ?_⟩
  · rw [ha, Option.some.injEq, combinationOf_eq_error_iff, Rule.combine_eq_emptyInput_iff]
  · intro e
    rw [ha, Option.some.injEq, combinationOf_eq_error_iff, combine_storedTexts_eq_parse_iff]
  · intro hne hok
    obtain ⟨u, us, hus⟩ := Rule.exists_map_parse_eq_ok hne hok
    rw [ha, Rule.combine_eq_ok hus]
    exact ⟨_, rfl⟩

/-- The second rule is refused, and the third one is stored without being read. -/
theorem combineStored_follows_three_creations :
    (∃ u, answerAt ([.createRule ['x'] "a > 1".toList, .createRule [] "b > 2".toList] ++
        .combineStored :: [.direct (.create ['y'] "no rule".toList)]) 2 = some (.ok (.tree u))) ∧
    answerAt ([.createRule ['x'] "a > 1".toList, .createRule [] "b > 2".toList, .combineStored,
        .direct (.create ['y'] "no rule".toList), .createRule ['z'] ['?'], .listRules] ++
        .combineStored :: [.combineRules []]) 6 =
      some (.error (.service (.combine (.parse (.invalidRule "no rule".toList))))) := by
  have ht : ∀ t ∈ storedTexts [.createRule ['x'] "a > 1".toList, .createRule [] "b > 2".toList],
      ∃ u, Rule.parse t = .ok u := by
    intro t ht
    obtain rfl := List.mem_singleton.1 ht
    exact ⟨_, Rule.parse_eq_ok_of_parseWithin rfl⟩
  have hu : Rule.parse "no rule".toList = .error (.invalidRule "no rule".toList) := by
    rw [Rule.parse_eq_parseWithin]
    decide
  constructor
  · exact (combineStored_follows_creations [.createRule ['x'] "a > 1".toList,
      .createRule [] "b > 2".toList] _).2.2.2.2 (List.cons_ne_nil _ _) ht
  · exact ((combineStored_follows_creations [.createRule ['x'] "a > 1".toList,
      .createRule [] "b > 2".toList, .combineStored, .direct (.create ['y'] "no rule".toList),
      .createRule ['z'] ['?'], .listRules] _).2.2.2.1 _).2
        ⟨[.createRule ['x'] "a > 1".toList, .createRule [] "b > 2".toList, .combineStored], _,
          _, "no rule".toList, rfl, rfl, ht, hu⟩

end Eligibility.Service

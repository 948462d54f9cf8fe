import Eligibility.Proofs.Service.Entries
import Eligibility.Proofs.Service.Relay

namespace Eligibility.Service

variable {σ α : Type} {c : Call} {x : Option (Except StoreError Store.Answer)}
  {y : Except Error Answer}

namespace Call

def isEvaluation : Call → Bool
  | evaluateRule _ _ => true
  | _ => false

/-- Whether a call creates a rule in the store behind the service's back. -/
def isDirectCreation : Call → Bool
  | direct d => (Store.kept? d).isSome
  | _ => false

/-- The rule that a call has created through the service, if it has. -/
def created? : Call → Except Error Answer → Option StoredRule
  | createRule _ _, .ok (.rule r) => some r
  | _, _ => none

end Call

theorem filterMap_span?_trail (c : Call) (y : Except Error Answer) :
    (c.trail y).filterMap Event.span? = c.span?.toList := by
  fun_cases Call.trail c y with
  | case1 => rfl
  | case2 => rfl
  | case3 => cases c.span? <;> rfl

theorem filterMap_storedId?_trail (c : Call) (y : Except Error Answer) :
    (c.trail y).filterMap Event.storedId? = ((c.created? y).map (·.id)).toList := by
  cases c with
  | createRule name text =>
    cases y with
    | error e => rfl
    | ok answer => cases answer <;> rfl
  | evaluateRule text attributes =>
    cases y with
    | error e => rfl
    | ok answer => cases answer <;> rfl
  | _ => rfl

/-- A call that evaluates a rule is entered with its answer, unless that is an error. -/
theorem Reply.results_trail (h : Reply c x y) :
    ((c.trail y).filterMap Event.result?).map (fun b => .ok (.decision b)) =
      if c.isEvaluation && y.isOk then [y] else [] := by
  cases h with
  | evaluated text a => cases Rule.parse text <;> rfl
  | _ => rfl

/-- Where no direct call creates, a rule is created exactly if the store has answered so. -/
theorem Reply.created?_eq (h : Reply c x y)
    (hd : ∀ d, c = .direct d → x.bind Store.created? = none) :
    c.created? y = x.bind Store.created? := by
  cases h with
  | direct d x => exact (hd d rfl).symm
  | _ => rfl

section Run

variable [RuleStore σ]

theorem filterMap_events_run {f : Event → Option α} (hf : ∀ e, e.isEntry = false → f e = none)
    (calls : List Call) (s : σ) : (run calls s).events.filterMap f =
      (calls.zip (run calls s).answer.1).flatMap fun p => (p.1.trail p.2).filterMap f := by
  rw [← Logged.filterMap_entries hf, entries_run, List.filterMap_flatMap]

theorem spans_run (calls : List Call) (s : σ) :
    (run calls s).events.filterMap Event.span? = calls.filterMap Call.span? := by
  have hflat := List.flatMap_map Prod.fst (fun c : Call => c.span?.toList)
    (calls.zip (run calls s).answer.1)
  rw [List.map_fst_zip (length_run calls s).ge] at hflat
  rw [filterMap_events_run fun _ he => (Event.eq_none_of_not_isEntry he).1,
    List.filterMap_eq_flatMap_toList, hflat]
  simp only [filterMap_span?_trail]

theorem results_run (calls : List Call) (s : σ) :
    ((run calls s).events.filterMap Event.result?).map (fun b => .ok (.decision b)) =
      ((calls.zip (run calls s).answer.1).filter fun p => p.1.isEvaluation && p.2.isOk).map
        Prod.snd := by
  rw [filterMap_events_run fun _ he => (Event.eq_none_of_not_isEntry he).2.2]
  induction calls generalizing s with
  | nil => rfl
  | cons c calls ih =>
    rw [answer_run_cons, List.zip_cons_cons, List.flatMap_cons, List.map_append, ih,
      (reply_perform c s).results_trail, List.filter_cons]
    split <;> rfl

theorem storedIds_run (calls : List Call) (s : σ) :
    (run calls s).events.filterMap Event.storedId? =
      ((calls.zip (run calls s).answer.1).filterMap fun p => p.1.created? p.2).map (·.id) := by
  rw [filterMap_events_run fun _ he => (Event.eq_none_of_not_isEntry he).2.1, List.map_filterMap,
    List.filterMap_eq_flatMap_toList]
  simp only [filterMap_storedId?_trail]

end Run

theorem created?_perform_eq_none {d : Store.Call} (h : (Call.direct d).isDirectCreation = false)
    (s : MemoryStore) : Store.created? (Store.perform d s).1 = none := by
  rcases MemoryStore.perform_cases d s with ⟨_, hc, _⟩ | ⟨name, text, hk, _⟩
  · exact hc
  · rw [Call.isDirectCreation, hk] at h
    cases h

theorem rules_perform (h : c.isDirectCreation = false) (s : MemoryStore) :
    (perform c s).answer.2.rules.toList =
      s.rules.toList ++ (c.created? (perform c s).answer.1).toList := by
  have hcreated := (reply_perform c s).created?_eq fun d hd => by
    subst hd
    exact created?_perform_eq_none h s
  rw [store_perform, hcreated]
  cases storeCall? c with
  | none => exact (List.append_nil _).symm
  | some d => exact MemoryStore.rules_perform d s

/-- A memory store that nobody but the service creates rules in comes to hold those that the calls
have created. -/
theorem rules_run (calls : List Call) (h : ∀ c ∈ calls, c.isDirectCreation = false)
    (s : MemoryStore) : (run calls s).answer.2.rules.toList = s.rules.toList ++
      (calls.zip (run calls s).answer.1).filterMap fun p => p.1.created? p.2 := by
  induction calls generalizing s with
  | nil => exact (List.append_nil _).symm
  | cons c calls ih =>
    obtain ⟨hc, hcalls⟩ := List.forall_mem_cons.1 h
    rw [answer_run_cons, ih hcalls, rules_perform hc, List.zip_cons_cons,
      List.filterMap_eq_flatMap_toList, List.filterMap_eq_flatMap_toList, List.flatMap_cons,
      List.append_assoc]

/-- The log of a service over a memory store, empty at first, accounts for its calls. The rules
reported as stored are those that it lists, in their order, if nobody creates rules behind its
back; the results reported are those of the evaluations that succeed, in their order; and each call
that creates, combines or evaluates opens one span, whatever becomes of it. -/
theorem log_accounts_for_calls (calls : List Call) :
    ∃ answers s events, run calls MemoryStore.empty = ⟨(answers, s), events⟩ ∧
      answers.length = calls.length ∧
      ((∀ c ∈ calls, c.isDirectCreation = false) →
        ∃ rs, perform .listRules s = ⟨(.ok (.rules rs), s), []⟩ ∧
          events.filterMap Event.storedId? = rs.map (·.id)) ∧
      (events.filterMap Event.result?).map (fun b => .ok (.decision b)) =
        ((calls.zip answers).filter fun p => p.1.isEvaluation && p.2.isOk).map Prod.snd ∧
      events.filterMap Event.span? = calls.filterMap Call.span? := by
  refine ⟨_, _, _, rfl, length_run calls _, ?_, results_run calls _, spans_run calls _⟩
  intro h
  refine ⟨_, rfl, ?_⟩
  rw [storedIds_run, rules_run calls h]
  rfl

/-- The second creation is refused, as are the direct one, the first combination and the first
evaluation. -/
theorem log_accounts_for_refused_calls :
    ∃ calls events, calls = [.createRule ['x'] ['a', '>', '1'], .createRule [] ['!'],
        .direct (.create ['y'] []), .listRules, .combineRules [], .combineStored,
        .evaluateRule none none,
        .evaluateRule (some ['a', '>', '1']) (some (.ofList [(['a'], .int 2)])),
        .evaluateRule (some ['a', '>', '1']) (some .empty), .createRule ['y'] ['!']] ∧
      (∀ c ∈ calls, Call.isDirectCreation c = false) ∧
      (run calls MemoryStore.empty).events = events ∧
      events.filterMap Event.storedId? = [1, 2] ∧
      events.filterMap Event.result? = [true, false] ∧
      events.filterMap Event.span? = [.createRule ['x'], .createRule [], .combineRules,
        .combineStored, .evaluateRule, .evaluateRule, .evaluateRule, .createRule ['y']] := by
  have hparse : Rule.parse ['a', '>', '1'] = .ok (.leaf ['a', '>', '1']) :=
    Rule.parse_eq_ok_of_parseWithin (by decide)
  have hevaluated (a : Attributes) (s : MemoryStore) :
      (perform (.evaluateRule (some ['a', '>', '1']) (some a)) s).answer =
        (.ok (.decision ((Tree.leaf ['a', '>', '1']).evaluate a)), s) := by
    rw [answer_evaluateRule, hparse]
    rfl
  have hrefused (s : MemoryStore) : (perform (.evaluateRule none none) s).answer =
      (.error (.service (.missingInput "rule_text")), s) := by
    rw [perform, answer_settle, outcome_evaluateRule]
    rfl
  obtain ⟨answers, s, events, hrun, -, hids, hresults, hspans⟩ := log_accounts_for_calls
    [.createRule ['x'] ['a', '>', '1'], .createRule [] ['!'], .direct (.create ['y'] []),
      .listRules, .combineRules [], .combineStored, .evaluateRule none none,
      .evaluateRule (some ['a', '>', '1']) (some (.ofList [(['a'], .int 2)])),
      .evaluateRule (some ['a', '>', '1']) (some .empty), .createRule ['y'] ['!']]
  obtain ⟨rs, hlist, hids⟩ := hids (by decide)
  cases hlist
  have hs : s = (Store.run _ MemoryStore.empty).2 :=
    (congrArg (·.answer.2) hrun).symm.trans (replies_run _ _).1
  obtain rfl : _ = answers := congrArg (·.answer.1) hrun
  refine ⟨_, events, rfl, by decide, congrArg Logged.events hrun, ?_, ?_, hspans⟩
  · rw [hids, hs]
    decide
  · simp only [answer_run_cons, hevaluated, hrefused] at hresults
    exact (List.map_inj_right fun _ _ h => Answer.decision.inj (Except.ok.inj h)).1
      (hresults.trans rfl)

end Eligibility.Service

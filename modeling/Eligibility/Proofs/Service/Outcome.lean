import Eligibility.Service.Call

namespace Eligibility

variable {σ α β ε : Type}

namespace ServiceM

/-- What a request answers, and the store after it. -/
def outcome (x : ServiceM σ α) (s : σ) : Except ServiceError α × σ := (x.run.run s).answer

@[simp] theorem outcome_logged (x : Logged α) (s : σ) :
    outcome (liftM x : ServiceM σ α) s = (.ok x.answer, s) := rfl

theorem outcome_bind (x : ServiceM σ α) (f : α → ServiceM σ β) (s : σ) :
    (x >>= f).outcome s = match x.outcome s with
      | (.ok a, s') => (f a).outcome s'
      | (.error e, s') => (.error e, s') := by
  change ((ExceptT.bindCont f (x.outcome s).1).run (x.outcome s).2).answer = _
  rcases x.outcome s with ⟨_ | _, _⟩ <;> rfl

end ServiceM

namespace Service

theorem outcome_askStore (ask : σ → Except StoreError α × σ) (s : σ) :
    (askStore ask).outcome s = ((ask s).1.mapError .store, (ask s).2) := rfl

theorem outcome_compute (wrap : ε → ServiceError) (x : ExceptT ε Logged α) (s : σ) :
    (compute wrap x).outcome s = (x.run.answer.mapError wrap, s) := rfl

theorem outcome_combineRules (texts : List Text) (s : σ) :
    (combineRules texts).outcome s = ((Rule.combine texts).mapError .combine, s) := by
  rw [combineRules, ServiceM.outcome_bind, ServiceM.outcome_logged]
  rfl

/-- A missing text is noticed before missing attributes, and these before an error in the text. -/
theorem outcome_evaluateRule (text : Option Text) (attributes : Option Attributes) (s : σ) :
    (evaluateRule text attributes).outcome s = (match text, attributes with
      | none, _ => .error (.missingInput "rule_text")
      | some _, none => .error (.missingInput "attributes")
      | some t, some a => ((Rule.parse t).mapError .parse).map (·.evaluate a), s) := by
  rw [evaluateRule, ServiceM.outcome_bind, ServiceM.outcome_logged]
  cases text with
  | none => rfl
  | some t =>
    cases attributes with
    | none => rfl
    | some a =>
      have hp : (compute .parse (Rule.parseM t)).outcome s =
          ((Rule.parse t).mapError .parse, s) := rfl
      simp only [require, pure_bind, ServiceM.outcome_bind, ServiceM.outcome_logged, hp]
      cases Rule.parse t with
      | error e => rfl
      | ok u => rfl

variable [RuleStore σ]

theorem outcome_createRule (name text : Text) (s : σ) : (createRule name text).outcome s =
    ((RuleStore.create name text s).1.mapError .store, (RuleStore.create name text s).2) := by
  simp only [createRule, ServiceM.outcome_bind, ServiceM.outcome_logged, outcome_askStore]
  cases (RuleStore.create name text s).1 with
  | error e => rfl
  | ok rule => rfl

theorem outcome_listRules (s : σ) : (listRules (σ := σ)).outcome s =
    ((RuleStore.listAll s).1.mapError .store, (RuleStore.listAll s).2) := rfl

theorem outcome_combineStored (s : σ) : (combineStored (σ := σ)).outcome s =
    (((RuleStore.listAll s).1.mapError .store).bind fun rules =>
      (Rule.combine (rules.map (·.text))).mapError .combine, (RuleStore.listAll s).2) := by
  simp only [combineStored, ServiceM.outcome_bind, ServiceM.outcome_logged, outcome_askStore,
    outcome_compute]
  cases (RuleStore.listAll s).1 with
  | error e => rfl
  | ok rules => rfl

omit [RuleStore σ] in
theorem answer_settle (wrap : α → Answer) (x : ServiceM σ α) (s : σ) : (settle wrap x s).answer =
    (((x.outcome s).1.mapError .service).map wrap, (x.outcome s).2) := rfl

theorem answer_run_cons (c : Call) (calls : List Call) (s : σ) : (run (c :: calls) s).answer =
    ((perform c s).answer.1 :: (run calls (perform c s).answer.2).answer.1,
      (run calls (perform c s).answer.2).answer.2) := rfl

/-- The answer of a call in a run is that of the call on the store as the calls before left it. -/
theorem answer_run_at (before after : List Call) (c : Call) (s : σ) :
    (run (before ++ c :: after) s).answer.1[before.length]? =
      some (perform c (run before s).answer.2).answer.1 := by
  induction before generalizing s with
  | nil => rfl
  | cons d before ih =>
    rw [List.cons_append, answer_run_cons, List.length_cons, List.getElem?_cons_succ, ih,
      answer_run_cons]

end Service

end Eligibility

import Eligibility.Proofs.Rule.Rejection
import Eligibility.Proofs.Service.Outcome

namespace Eligibility

namespace Event

def storedId? : Event → Option UInt64
  | ruleStored id => some id
  | _ => none

def result? : Event → Option Bool
  | ruleEvaluated result => some result
  | _ => none

/-- What a service reports of its calls themselves. All else comes from the reading, combining and
evaluating of rules that they go through. -/
def isEntry (e : Event) : Bool := e.span?.isSome || e.storedId?.isSome || e.result?.isSome

theorem eq_none_of_not_isEntry {e : Event} (h : e.isEntry = false) :
    e.span? = none ∧ e.storedId? = none ∧ e.result? = none := by
  simpa [isEntry, and_assoc] using h

end Event

namespace Logged

variable {α β : Type}

def entries (x : Logged α) : List Event := x.events.filter Event.isEntry

theorem entries_bind (x : Logged α) (f : α → Logged β) :
    (x >>= f).entries = x.entries ++ (f x.answer).entries := List.filter_append _ _

/-- Who looks for entries alone finds them among all events. -/
theorem filterMap_entries {f : Event → Option β} (hf : ∀ e, e.isEntry = false → f e = none)
    (x : Logged α) : x.entries.filterMap f = x.events.filterMap f := by
  rw [entries, List.filterMap_filter]
  apply List.filterMap_congr
  intro e _
  split
  case isTrue => rfl
  case isFalse he => exact (hf e (Bool.eq_false_iff.2 he)).symm

end Logged

theorem Comparison.entries_checkM (c : Comparison) (a : Attributes) :
    (c.checkM a).entries = [] := by
  fun_cases checkM a c <;> rfl

theorem Tree.entries_evaluateM (t : Tree) (a : Attributes) : (t.evaluateM a).entries = [] := by
  induction t with
  | leaf s => exact Comparison.entries_checkM _ a
  | join c l r ihl ihr =>
    cases c with
    | and =>
      rw [evaluateM, Logged.entries_bind, ihl]
      cases (l.evaluateM a).answer with
      | true => exact ihr
      | false => rfl
    | or =>
      rw [evaluateM, Logged.entries_bind, ihl]
      cases (l.evaluateM a).answer with
      | true => rfl
      | false => exact ihr
    | other symbol => rfl

namespace Rule

theorem filter_rejections {α : Type} (x : Except ParseError α) :
    (rejections x).filter Event.isEntry = [] := by
  cases x with
  | ok u => rfl
  | error e => rfl

theorem entries_parseM (t : Text) : (parseM t).run.entries = [] := by
  rw [Logged.entries, reported_parseM t]
  exact filter_rejections _

theorem entries_combineM (ts : List Text) : (combineM ts).run.entries = [] := by
  by_cases h : ts = []
  · subst h
    rfl
  · rw [Logged.entries, events_combineM h]
    exact filter_rejections _

end Rule

namespace ServiceM

variable {σ α β : Type}

/-- What a request enters into the log. -/
def entries (x : ServiceM σ α) (s : σ) : List Event := (x.run.run s).entries

theorem entries_logged (x : Logged α) (s : σ) :
    entries (liftM x : ServiceM σ α) s = x.entries := by
  change ((x.events ++ []) ++ []).filter Event.isEntry = _
  rw [List.append_nil, List.append_nil]
  rfl

theorem entries_bind (x : ServiceM σ α) (f : α → ServiceM σ β) (s : σ) :
    (x >>= f).entries s = x.entries s ++ match x.outcome s with
      | (.ok a, s') => (f a).entries s'
      | (.error _, _) => [] := by
  change ((x.run.run s) >>= fun p => (ExceptT.bindCont f p.1).run p.2).entries = _
  rw [Logged.entries_bind]
  change _ ++ ((ExceptT.bindCont f (x.outcome s).1).run (x.outcome s).2).entries = _
  rcases x.outcome s with ⟨_ | _, _⟩ <;> rfl

end ServiceM

namespace Service

variable {σ α ε : Type}

namespace Call

/-- The span that a call opens, be it answered or refused. -/
def span? : Call → Option Span
  | createRule name _ => some (.createRule name)
  | combineRules _ => some .combineRules
  | combineStored => some .combineStored
  | evaluateRule _ _ => some .evaluateRule
  | listRules | direct _ => none

/-- What a call enters into the log if it is answered so. -/
def trail : Call → Except Error Answer → List Event
  | createRule name _, .ok (.rule r) => [.opened (.createRule name), .ruleStored r.id]
  | evaluateRule _ _, .ok (.decision result) => [.opened .evaluateRule, .ruleEvaluated result]
  | c, _ => (c.span?.map .opened).toList

end Call

theorem entries_askStore (ask : σ → Except StoreError α × σ) (s : σ) :
    (askStore ask).entries s = [] := rfl

theorem entries_compute (wrap : ε → ServiceError) (x : ExceptT ε Logged α) (s : σ) :
    (compute wrap x).entries s = x.run.entries := by
  change (x.run.events ++ []).filter Event.isEntry = _
  rw [List.append_nil]
  rfl

theorem entries_combineRules (texts : List Text) (s : σ) :
    (combineRules texts).entries s = [.opened .combineRules] := by
  rw [combineRules, ServiceM.entries_bind, ServiceM.outcome_logged, ServiceM.entries_logged]
  dsimp only
  rw [entries_compute, Rule.entries_combineM]
  rfl

/-- An evaluation is entered with its result, and only if it has one. -/
theorem entries_evaluateRule (text : Option Text) (attributes : Option Attributes) (s : σ) :
    (evaluateRule text attributes).entries s = .opened .evaluateRule ::
      match ((evaluateRule text attributes).outcome s).1 with
      | .ok result => [.ruleEvaluated result]
      | .error _ => [] := by
  rw [outcome_evaluateRule, evaluateRule, ServiceM.entries_bind, ServiceM.outcome_logged,
    ServiceM.entries_logged]
  cases text with
  | none => rfl
  | some t =>
    cases attributes with
    | none => rfl
    | some a =>
      simp only [require, pure_bind, ServiceM.entries_bind, ServiceM.outcome_logged,
        ServiceM.entries_logged, entries_compute, outcome_compute, Rule.entries_parseM,
        Rule.parse]
      cases (Rule.parseM t).run.answer with
      | error e => rfl
      | ok u =>
        simp only [Except.mapError, Except.map, Tree.entries_evaluateM]
        rfl

variable [RuleStore σ]

theorem entries_createRule (name text : Text) (s : σ) :
    (createRule name text).entries s = .opened (.createRule name) ::
      match ((createRule name text).outcome s).1 with
      | .ok rule => [.ruleStored rule.id]
      | .error _ => [] := by
  rw [outcome_createRule]
  simp only [createRule, ServiceM.entries_bind, ServiceM.entries_logged, ServiceM.outcome_logged,
    outcome_askStore, entries_askStore]
  cases (RuleStore.create name text s).1 with
  | error e => rfl
  | ok rule => rfl

theorem entries_listRules (s : σ) : (listRules (σ := σ)).entries s = [] := rfl

theorem entries_combineStored (s : σ) :
    (combineStored (σ := σ)).entries s = [.opened .combineStored] := by
  simp only [combineStored, ServiceM.entries_bind, ServiceM.entries_logged,
    ServiceM.outcome_logged, outcome_askStore, entries_askStore, entries_compute,
    Rule.entries_combineM]
  cases (RuleStore.listAll s).1 with
  | error e => rfl
  | ok rules => rfl

omit [RuleStore σ] in
theorem entries_settle (wrap : α → Answer) (x : ServiceM σ α) (s : σ) :
    (settle wrap x s).entries = x.entries s := by
  change ((x.run.run s).events ++ []).filter Event.isEntry = _
  rw [List.append_nil]
  rfl

/-- The entries of a call follow from what it is and how it is answered. -/
theorem entries_perform (c : Call) (s : σ) :
    (perform c s).entries = c.trail (perform c s).answer.1 := by
  cases c with
  | createRule name text =>
    rw [perform, entries_settle, entries_createRule, answer_settle]
    cases ((createRule name text).outcome s).1 with
    | error e => rfl
    | ok rule => rfl
  | listRules => rw [perform, entries_settle, entries_listRules]; rfl
  | combineRules texts => rw [perform, entries_settle, entries_combineRules]; rfl
  | combineStored => rw [perform, entries_settle, entries_combineStored]; rfl
  | evaluateRule text attributes =>
    rw [perform, entries_settle, entries_evaluateRule, answer_settle]
    cases ((evaluateRule text attributes).outcome s).1 with
    | error e => rfl
    | ok result => rfl
  | direct call => rfl

/-- The entries of a run are those of its calls, one after the other. -/
theorem entries_run (calls : List Call) (s : σ) : (run calls s).entries =
    (calls.zip (run calls s).answer.1).flatMap fun p => p.1.trail p.2 := by
  induction calls generalizing s with
  | nil => rfl
  | cons c calls ih =>
    have hrun : (run (c :: calls) s).entries =
        (perform c s).entries ++ (run calls (perform c s).answer.2).entries := by
      rw [run, Logged.entries_bind, Logged.entries_bind]
      exact congrArg _ (List.append_nil _)
    rw [hrun, entries_perform, ih, answer_run_cons, List.zip_cons_cons, List.flatMap_cons]

theorem length_run (calls : List Call) (s : σ) :
    (run calls s).answer.1.length = calls.length := by
  induction calls generalizing s with
  | nil => rfl
  | cons c calls ih => rw [answer_run_cons, List.length_cons, ih, List.length_cons]

end Service

end Eligibility

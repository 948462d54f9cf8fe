import Eligibility.Proofs.Service.Decision
import Eligibility.Proofs.Store.Memory
import Eligibility.Store.Bounded

namespace Eligibility.Service

/-- What a call asks of the store, if it asks anything. -/
def storeCall? : Call → Option Store.Call
  | .createRule name text => some (.create name text)
  | .listRules | .combineStored => some .listAll
  | .combineRules _ | .evaluateRule _ _ => none
  | .direct call => some call

/-- How a call is answered, given the answer of the store, if that is asked. -/
inductive Reply : Call → Option (Except StoreError Store.Answer) → Except Error Answer → Prop
  | created (name text : Text) (r : StoredRule) :
      Reply (.createRule name text) (some (.ok (.rule r))) (.ok (.rule r))
  | notCreated (name text : Text) (e : StoreError) :
      Reply (.createRule name text) (some (.error e)) (.error (.service (.store e)))
  | listed (rs : List StoredRule) : Reply .listRules (some (.ok (.rules rs))) (.ok (.rules rs))
  | notListed (e : StoreError) :
      Reply .listRules (some (.error e)) (.error (.service (.store e)))
  | storedCombined (rs : List StoredRule) : Reply .combineStored (some (.ok (.rules rs)))
      (combinationOf (Rule.combine (rs.map (·.text))))
  | storedNotListed (e : StoreError) :
      Reply .combineStored (some (.error e)) (.error (.service (.store e)))
  | combined (texts : List Text) :
      Reply (.combineRules texts) none (combinationOf (Rule.combine texts))
  | noText (attributes : Option Attributes) : Reply (.evaluateRule none attributes) none
      (.error (.service (.missingInput "rule_text")))
  | noAttributes (text : Text) : Reply (.evaluateRule (some text) none) none
      (.error (.service (.missingInput "attributes")))
  | evaluated (text : Text) (a : Attributes) :
      Reply (.evaluateRule (some text) (some a)) none (decisionOf a (Rule.parse text))
  | direct (call : Store.Call) (x : Except StoreError Store.Answer) :
      Reply (.direct call) (some x) ((x.mapError .store).map .ofStore)

/-- How calls are answered one after the other, given the answers of the store in their order. -/
inductive Replies : List Call → List (Except StoreError Store.Answer) →
    List (Except Error Answer) → Prop
  | nil : Replies [] [] []
  | alone {c : Call} {calls : List Call} {xs : List (Except StoreError Store.Answer)}
      {y : Except Error Answer} {ys : List (Except Error Answer)} (h : Reply c none y)
      (hs : Replies calls xs ys) : Replies (c :: calls) xs (y :: ys)
  | asking {c : Call} {calls : List Call} {x : Except StoreError Store.Answer}
      {xs : List (Except StoreError Store.Answer)} {y : Except Error Answer}
      {ys : List (Except Error Answer)} (h : Reply c (some x) y) (hs : Replies calls xs ys) :
      Replies (c :: calls) (x :: xs) (y :: ys)

section Unique

variable {c : Call} {calls : List Call} {x x' : Option (Except StoreError Store.Answer)}
  {y y' : Except Error Answer} {xs : List (Except StoreError Store.Answer)}
  {ys ys' : List (Except Error Answer)}

theorem Reply.unique (h : Reply c x y) (h' : Reply c x y') : y = y' := by
  cases h with
  | created | notCreated | listed | notListed | storedCombined | storedNotListed => cases h'; rfl
  | combined | noText | noAttributes | evaluated => cases h'; rfl
  | direct => cases h'; rfl

theorem Reply.isSome_eq (h : Reply c x y) : x.isSome = (storeCall? c).isSome := by
  cases h with
  | created | notCreated | listed | notListed | storedCombined | storedNotListed => rfl
  | combined | noText | noAttributes | evaluated => rfl
  | direct => rfl

/-- No call can be answered both with the store and without it. -/
theorem Reply.isSome_eq_isSome (h : Reply c x y) (h' : Reply c x' y') : x.isSome = x'.isSome :=
  h.isSome_eq.trans h'.isSome_eq.symm

theorem Replies.unique (h : Replies calls xs ys) (h' : Replies calls xs ys') : ys = ys' := by
  induction h generalizing ys' with
  | nil => cases h'; rfl
  | alone hc _ ih =>
    cases h' with
    | alone hc' hs' => rw [hc.unique hc', ih hs']
    | asking hc' _ => cases hc.isSome_eq_isSome hc'
  | asking hc _ ih =>
    cases h' with
    | alone hc' _ => cases hc.isSome_eq_isSome hc'
    | asking hc' hs' => rw [hc.unique hc', ih hs']

end Unique

theorem combinationOf_eq (x : Except CombineError Tree) :
    ((x.mapError ServiceError.combine).mapError Error.service).map Answer.tree =
      combinationOf x := by
  cases x with
  | error e => rfl
  | ok u => rfl

variable {σ : Type} [RuleStore σ]

/-- A call leaves the store as the one thing does that it asks of it. -/
theorem store_perform (c : Call) (s : σ) : (perform c s).answer.2 =
    match storeCall? c with
    | some d => (Store.perform d s).2
    | none => s := by
  cases c with
  | createRule name text => rw [perform, answer_settle, outcome_createRule]; rfl
  | listRules => rw [perform, answer_settle, outcome_listRules]; rfl
  | combineRules texts => rw [perform, answer_settle, outcome_combineRules]; rfl
  | combineStored => rw [perform, answer_settle, outcome_combineStored]; rfl
  | evaluateRule text attributes => rw [perform, answer_settle, outcome_evaluateRule]; rfl
  | direct call => rfl

theorem reply_perform (c : Call) (s : σ) :
    Reply c ((storeCall? c).map fun d => (Store.perform d s).1) (perform c s).answer.1 := by
  cases c with
  | createRule name text =>
    rw [perform, answer_settle, outcome_createRule, storeCall?, Option.map_some, Store.perform]
    dsimp only [Prod.map]
    cases (RuleStore.create name text s).1 with
    | error e => exact .notCreated name text e
    | ok r => exact .created name text r
  | listRules =>
    rw [perform, answer_settle, outcome_listRules, storeCall?, Option.map_some, Store.perform]
    dsimp only [Prod.map]
    cases (RuleStore.listAll s).1 with
    | error e => exact .notListed e
    | ok rs => exact .listed rs
  | combineRules texts =>
    rw [perform, answer_settle, outcome_combineRules, combinationOf_eq]
    exact .combined texts
  | combineStored =>
    rw [perform, answer_settle, outcome_combineStored, storeCall?, Option.map_some, Store.perform]
    dsimp only [Prod.map]
    cases (RuleStore.listAll s).1 with
    | error e => exact .storedNotListed e
    | ok rs =>
      change Reply _ _ (((Except.mapError _ _).mapError _).map _)
      rw [combinationOf_eq]
      exact .storedCombined rs
  | evaluateRule text attributes =>
    cases text with
    | none =>
      rw [perform, answer_settle, outcome_evaluateRule]
      exact .noText attributes
    | some t =>
      cases attributes with
      | none =>
        rw [perform, answer_settle, outcome_evaluateRule]
        exact .noAttributes t
      | some a =>
        rw [answer_evaluateRule]
        exact .evaluated t a
  | direct call => exact .direct call _

theorem replies_run (calls : List Call) (s : σ) :
    (run calls s).answer.2 = (Store.run (calls.filterMap storeCall?) s).2 ∧
    Replies calls (Store.run (calls.filterMap storeCall?) s).1 (run calls s).answer.1 := by
  induction calls generalizing s with
  | nil => exact ⟨rfl, .nil⟩
  | cons c calls ih =>
    have hreply := reply_perform c s
    have hstore := store_perform c s
    rw [answer_run_cons]
    cases hc : storeCall? c with
    | none =>
      rw [hc] at hreply hstore
      rw [List.filterMap_cons_none hc, hstore]
      exact ⟨(ih s).1, .alone hreply (ih s).2⟩
    | some d =>
      rw [hc] at hreply hstore
      rw [List.filterMap_cons_some hc, Store.run_cons, hstore]
      exact ⟨(ih _).1, .asking hreply (ih _).2⟩

/-- A service asks its store once for each call that is about stored rules, in the order of the
calls and with the same arguments, and for nothing else; so the store ends as if it had been asked
alone. Nothing but the calls and what the store answers, be it errors, decides what the service
answers. -/
theorem service_relays_store (calls : List Call) (s : σ) :
    (run calls s).answer.2 = (Store.run (calls.filterMap storeCall?) s).2 ∧
    ∀ ys, (run calls s).answer.1 = ys ↔
      Replies calls (Store.run (calls.filterMap storeCall?) s).1 ys := by
  obtain ⟨hstore, hreplies⟩ := replies_run calls s
  apply And.intro hstore
  intro ys
  apply Iff.intro
  · intro h
    exact h ▸ hreplies
  · intro h
    exact hreplies.unique h

/-- Over a store with room for one rule, which it does not list. -/
example : (run [.createRule ['x'] [], .createRule ['y'] ['!'], .listRules, .combineStored]
    (BoundedStore.empty 1 true)).answer.1 =
      [.ok (.rule ⟨100, ['x'], []⟩), .error (.service (.store (.backend "store is full"))),
        .error (.service (.store (.backend "store is offline"))),
        .error (.service (.store (.backend "store is offline")))] := by
  decide

end Eligibility.Service

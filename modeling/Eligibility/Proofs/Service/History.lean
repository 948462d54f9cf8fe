import Eligibility.Proofs.Service.Outcome
import Eligibility.Store.Memory

namespace Eligibility

namespace MemoryStore

def texts (s : MemoryStore) : List Text := s.rules.toList.map (·.text)

/-- The text that a creation adds, if both fields are there. -/
def accepted? (name text : Text) : Option Text := if name = [] ∨ text = [] then none else some text

theorem texts_create (name text : Text) (s : MemoryStore) :
    (s.create name text).2.texts = s.texts ++ (accepted? name text).toList := by
  cases name with
  | nil => exact (List.append_nil _).symm
  | cons c name =>
    cases text with
    | nil => exact (List.append_nil _).symm
    | cons d text =>
      change (s.rules.push _).toList.map _ = _
      rw [Array.toList_push, List.map_append]
      rfl

end MemoryStore

namespace Service

def storedText? : Call → Option Text
  | .createRule name text | .direct (.create name text) => MemoryStore.accepted? name text
  | _ => none

/-- The texts that a memory store accepts in the course of the calls. -/
def storedTexts (calls : List Call) : List Text := calls.filterMap storedText?

/-- A memory store that was empty before the calls. -/
def storeAfter (calls : List Call) : MemoryStore := (run calls MemoryStore.empty).answer.2

/-- What a service answers if combining has that outcome. -/
def combinationOf (x : Except CombineError Tree) : Except Error Answer :=
  (x.mapError fun e => .service (.combine e)).map .tree

theorem answer_combineStored_texts (s : MemoryStore) :
    (perform .combineStored s).answer = (combinationOf (Rule.combine s.texts), s) := by
  have hl : RuleStore.listAll s = (.ok s.rules.toList, s) := rfl
  rw [perform, answer_settle, outcome_combineStored, hl]
  dsimp only [Except.mapError, Except.bind]
  rw [MemoryStore.texts]
  cases Rule.combine (s.rules.toList.map (·.text)) with
  | error e => rfl
  | ok u => rfl

theorem texts_perform (c : Call) (s : MemoryStore) :
    (perform c s).answer.2.texts = s.texts ++ (storedText? c).toList := by
  cases c with
  | createRule name text =>
    rw [perform, answer_settle, outcome_createRule]
    exact MemoryStore.texts_create name text s
  | listRules =>
    rw [perform, answer_settle, outcome_listRules]
    exact (List.append_nil _).symm
  | combineRules texts =>
    rw [perform, answer_settle, outcome_combineRules]
    exact (List.append_nil _).symm
  | combineStored =>
    rw [perform, answer_settle, outcome_combineStored]
    exact (List.append_nil _).symm
  | evaluateRule text attributes =>
    rw [perform, answer_settle, outcome_evaluateRule]
    exact (List.append_nil _).symm
  | direct call =>
    cases call with
    | create name text => exact MemoryStore.texts_create name text s
    | listAll => exact (List.append_nil _).symm

theorem texts_run (calls : List Call) (s : MemoryStore) :
    (run calls s).answer.2.texts = s.texts ++ storedTexts calls := by
  induction calls generalizing s with
  | nil => exact (List.append_nil _).symm
  | cons c calls ih =>
    rw [answer_run_cons, ih, texts_perform, List.append_assoc, storedTexts, storedTexts,
      List.filterMap_cons]
    cases storedText? c <;> rfl

theorem texts_storeAfter (calls : List Call) : (storeAfter calls).texts = storedTexts calls :=
  texts_run calls MemoryStore.empty

end Service

end Eligibility

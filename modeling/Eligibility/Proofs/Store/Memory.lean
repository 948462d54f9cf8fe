import Eligibility.Store.Memory
import Mathlib.Data.List.Range

namespace Eligibility

namespace Store

/-- The name and the text that a creation gives, if it gives both. -/
def kept? : Call → Option (Text × Text)
  | .create name text => if name = [] ∨ text = [] then none else some (name, text)
  | .listAll => none

/-- The rule that has been created, if that is what is answered. -/
def created? : Except StoreError Answer → Option StoredRule
  | .ok (.rule r) => some r
  | _ => none

variable {σ : Type} [RuleStore σ]

theorem run_cons (c : Call) (calls : List Call) (s : σ) : run (c :: calls) s =
    ((perform c s).1 :: (run calls (perform c s).2).1, (run calls (perform c s).2).2) := rfl

end Store

namespace MemoryStore

open Store (Call kept? created? perform run run_cons)

variable {c : Call} {calls : List Call} {name text : Text} {pairs more : List (Text × Text)}
  {s : MemoryStore}

/-- The rules of these names and texts, numbered in their order from `n` on. -/
def numberedFrom (n : Nat) (pairs : List (Text × Text)) : List StoredRule :=
  (pairs.zipIdx n).map fun p => ⟨UInt64.ofNat p.2, p.1.1, p.1.2⟩

/-- The store holds the rules of these names and texts, numbered from 1, and the number after
theirs is the next. -/
structure Holds (pairs : List (Text × Text)) (s : MemoryStore) : Prop where
  rules_eq : s.rules.toList = numberedFrom 1 pairs
  nextId_eq : s.nextId = UInt64.ofNat (pairs.length + 1)

theorem perform_listAll (s : MemoryStore) : perform .listAll s = (.ok (.rules s.rules.toList), s) :=
  rfl

theorem perform_create_unnamed (text : Text) (s : MemoryStore) :
    perform (.create [] text) s = (.error (.missingField "name"), s) := rfl

theorem perform_create_textless (h : name ≠ []) (s : MemoryStore) :
    perform (.create name []) s = (.error (.missingField "rule_text"), s) := by
  cases name with
  | nil => exact absurd rfl h
  | cons d name => rfl

theorem perform_create (hn : name ≠ []) (ht : text ≠ []) (s : MemoryStore) :
    perform (.create name text) s = (.ok (.rule ⟨s.nextId, name, text⟩),
      ⟨s.rules.push ⟨s.nextId, name, text⟩, s.nextId + 1⟩) := by
  cases name with
  | nil => exact absurd rfl hn
  | cons d name =>
    cases text with
    | nil => exact absurd rfl ht
    | cons e text => rfl

/-- A call leaves the store as it is and creates no rule, or adds the rule that it answers with. -/
theorem perform_cases (c : Call) (s : MemoryStore) :
    kept? c = none ∧ created? (perform c s).1 = none ∧ (perform c s).2 = s ∨
    ∃ name text, kept? c = some (name, text) ∧
      perform c s = (.ok (.rule ⟨s.nextId, name, text⟩),
        ⟨s.rules.push ⟨s.nextId, name, text⟩, s.nextId + 1⟩) := by
  cases c with
  | listAll => exact .inl ⟨rfl, rfl, rfl⟩
  | create name text =>
    by_cases hn : name = []
    · subst hn
      exact .inl ⟨rfl, rfl, rfl⟩
    by_cases ht : text = []
    · subst ht
      rw [perform_create_textless hn]
      exact .inl ⟨if_pos (.inr rfl), rfl, rfl⟩
    · exact .inr ⟨name, text, if_neg (not_or.2 ⟨hn, ht⟩), perform_create hn ht s⟩

theorem holds_empty : Holds [] empty := ⟨rfl, rfl⟩

theorem Holds.perform (h : Holds pairs s) (c : Call) :
    Holds (pairs ++ (kept? c).toList) (perform c s).2 := by
  rcases perform_cases c s with ⟨ha, _, hs⟩ | ⟨name, text, ha, hp⟩
  · rw [ha, hs, Option.toList_none, List.append_nil]
    exact h
  · rw [ha, hp, Option.toList_some]
    constructor
    · rw [Array.toList_push, h.rules_eq, h.nextId_eq, numberedFrom, numberedFrom,
        List.zipIdx_append, List.map_append, Nat.add_comm]
      rfl
    · rw [h.nextId_eq, List.length_append]
      exact (UInt64.ofNat_add _ 1).symm

theorem Holds.run (h : Holds pairs s) (calls : List Call) :
    Holds (pairs ++ calls.filterMap kept?) (run calls s).2 := by
  induction calls generalizing pairs s with
  | nil => rwa [List.filterMap_nil, List.append_nil]
  | cons c calls ih =>
    rw [run_cons, List.filterMap_eq_flatMap_toList, List.flatMap_cons, ← List.append_assoc,
      ← List.filterMap_eq_flatMap_toList]
    exact ih (h.perform c)

theorem rules_perform (c : Call) (s : MemoryStore) : (perform c s).2.rules.toList =
    s.rules.toList ++ (created? (perform c s).1).toList := by
  rcases perform_cases c s with ⟨_, hc, hs⟩ | ⟨name, text, _, hp⟩
  · rw [hc, hs, Option.toList_none, List.append_nil]
  · rw [hp, Array.toList_push]
    rfl

/-- A run adds the rules to the store that it answers as created. -/
theorem rules_run (calls : List Call) (s : MemoryStore) : (run calls s).2.rules.toList =
    s.rules.toList ++ (run calls s).1.filterMap created? := by
  induction calls generalizing s with
  | nil => exact (List.append_nil _).symm
  | cons c calls ih =>
    rw [run_cons, ih, rules_perform, List.append_assoc, List.filterMap_eq_flatMap_toList,
      List.filterMap_eq_flatMap_toList, List.flatMap_cons]

theorem map_pair_numberedFrom (n : Nat) (pairs : List (Text × Text)) :
    (numberedFrom n pairs).map (fun r => (r.name, r.text)) = pairs := by
  rw [numberedFrom, List.map_map]
  exact List.zipIdx_map_fst n pairs

theorem length_numberedFrom (n : Nat) (pairs : List (Text × Text)) :
    (numberedFrom n pairs).length = pairs.length := by
  rw [numberedFrom, List.length_map, List.length_zipIdx]

theorem map_id_numberedFrom {n : Nat} (h : n + pairs.length ≤ UInt64.size) :
    (numberedFrom n pairs).map (·.id.toNat) = List.range' n pairs.length := by
  have hk : ∀ k ∈ List.range' n pairs.length, (UInt64.ofNat k).toNat = k := by
    intro k hk
    rw [List.mem_range'_1] at hk
    exact UInt64.toNat_ofNat_of_lt' (by omega)
  calc (numberedFrom n pairs).map (·.id.toNat)
      = ((pairs.zipIdx n).map Prod.snd).map fun k => (UInt64.ofNat k).toNat := by
        rw [numberedFrom, List.map_map, List.map_map]
        rfl
    _ = (List.range' n pairs.length).map id := by
        rw [List.zipIdx_map_snd]
        exact List.map_congr_left hk
    _ = List.range' n pairs.length := List.map_id _

theorem ne_nil_of_kept? {p : Text × Text} (h : kept? c = some p) : p.1 ≠ [] ∧ p.2 ≠ [] := by
  cases c with
  | listAll => cases h
  | create name text =>
    rw [kept?] at h
    split at h
    case isTrue => cases h
    case isFalse hne =>
      cases h
      exact not_or.1 hne

/-- After any calls a memory store lists the rules that it has created, in their order and numbered
from 1, with the names and texts of the creations that gave both. A creation that lacks one is
refused, its name looked at first, and leaves the store as it is; any other gets the next number. -/
theorem memory_store_numbers_created (calls : List Call)
    (h : (calls.filterMap kept?).length < UInt64.size - 1) :
    ∃ rs s, (run calls empty).2 = s ∧ perform .listAll s = (.ok (.rules rs), s) ∧
      (run calls empty).1.filterMap created? = rs ∧
      rs.map (fun r => (r.name, r.text)) = calls.filterMap kept? ∧
      (∀ r ∈ rs, r.name ≠ [] ∧ r.text ≠ []) ∧
      rs.map (·.id.toNat) = List.range' 1 rs.length ∧
      (∀ text, perform (.create [] text) s = (.error (.missingField "name"), s)) ∧
      (∀ name, name ≠ [] → perform (.create name []) s = (.error (.missingField "rule_text"), s)) ∧
      ∀ name text, name ≠ [] → text ≠ [] → ∃ id s',
        perform (.create name text) s = (.ok (.rule ⟨id, name, text⟩), s') ∧
        id.toNat = rs.length + 1 := by
  have hs := holds_empty.run calls
  rw [List.nil_append] at hs
  have hpairs := map_pair_numberedFrom 1 (calls.filterMap kept?)
  have hlength := length_numberedFrom 1 (calls.filterMap kept?)
  refine ⟨numberedFrom 1 (calls.filterMap kept?), _, rfl, ?_, ?_, hpairs, ?_, ?_,
    fun text => perform_create_unnamed text _, fun name hn => perform_create_textless hn _, ?_⟩
  · rw [perform_listAll, hs.rules_eq]
  · rw [← hs.rules_eq, rules_run]
    rfl
  · intro r hr
    have hp : (r.name, r.text) ∈ calls.filterMap kept? := by
      rw [← hpairs]
      exact List.mem_map_of_mem hr
    obtain ⟨c, _, hc⟩ := List.mem_filterMap.1 hp
    exact ne_nil_of_kept? hc
  · rw [hlength]
    exact map_id_numberedFrom (by omega)
  · intro name text hn ht
    refine ⟨_, _, perform_create hn ht _, ?_⟩
    rw [hs.nextId_eq, hlength]
    exact UInt64.toNat_ofNat_of_lt' (by omega)

theorem memory_store_numbers_created_between_refused :
    ([.create ['x'] [], .create ['x'] "a > 1".toList, .listAll, .create [] [],
      .create ['x'] "no rule".toList].filterMap kept?).length < UInt64.size - 1 ∧
    ∃ rs, (perform .listAll (run [.create ['x'] [], .create ['x'] "a > 1".toList, .listAll,
        .create [] [], .create ['x'] "no rule".toList] empty).2).1 = .ok (.rules rs) ∧
      rs.map (fun r => (r.name, r.text)) = [(['x'], "a > 1".toList), (['x'], "no rule".toList)] ∧
      rs.map (·.id.toNat) = [1, 2] := by
  have h : ([.create ['x'] [], .create ['x'] "a > 1".toList, .listAll, .create [] [],
      .create ['x'] "no rule".toList].filterMap kept?).length < UInt64.size - 1 := by decide
  obtain ⟨rs, s, rfl, hl, _, hp, _, hid, _⟩ := memory_store_numbers_created _ h
  have hlength : rs.length = 2 := by
    have hp' := congrArg List.length hp
    rwa [List.length_map] at hp'
  rw [hlength] at hid
  exact ⟨h, rs, congrArg Prod.fst hl, hp, hid⟩

end MemoryStore

end Eligibility

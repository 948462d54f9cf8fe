import Eligibility.Proofs.Attributes
import Eligibility.Tree.Evaluate
import Mathlib.Data.Finset.Card

namespace Eligibility

/-- A call that gives an attribute a value, or what stands for one. -/
inductive Write : Type 1 where
  | insert (name : Text) (value : Value)
  | set {α : Type} [ToValue α] (name : Text) (value : α)

/-- The name and the value that a call writes. -/
def Write.entry : Write → Text × Value
  | insert name value => (name, value)
  | set name value => (name, ToValue.toValue value)

namespace Attributes

variable {a : Attributes} {log : List (Text × Value)} {e : Text × Value} {name : Text}
  {value : Value}

def write (a : Attributes) : Write → Attributes
  | .insert name value => a.insert name value
  | @Write.set _ _ name value => a.set name value

/-- Attributes that are collected from pairs and then written to. -/
def afterWrites (pairs : List (Text × Value)) (writes : List Write) : Attributes :=
  writes.foldl write (ofList pairs)

/-- The value was written under the name, and nothing was afterwards. -/
def LastWritten (log : List (Text × Value)) (name : Text) (value : Value) : Prop :=
  ∃ before after, log = before ++ (name, value) :: after ∧ ∀ e ∈ after, e.1 ≠ name

theorem not_lastWritten_nil (name : Text) (value : Value) : ¬ LastWritten [] name value := by
  rintro ⟨before, after, h, -⟩
  exact absurd h.symm (List.append_ne_nil_of_right_ne_nil _ (List.cons_ne_nil _ _))

/-- The last of all writes is the last under its name, and leaves the other names as they are. -/
theorem lastWritten_concat_iff : LastWritten (log ++ [e]) name value ↔
    name = e.1 ∧ value = e.2 ∨ name ≠ e.1 ∧ LastWritten log name value := by
  constructor
  · rintro ⟨before, after, he, ha⟩
    -- Unless nothing follows the value, `e` is the last of what follows.
    rcases List.eq_nil_or_concat' after with rfl | ⟨after, d, rfl⟩
    · obtain ⟨-, hd⟩ := List.append_inj' he rfl
      cases hd
      exact .inl ⟨rfl, rfl⟩
    · rw [← List.cons_append, ← List.append_assoc] at he
      obtain ⟨hlog, hd⟩ := List.append_inj' he rfl
      cases hd
      have hn : e.1 ≠ name := ha e (List.mem_append_right _ List.mem_cons_self)
      refine .inr ⟨hn.symm, before, after, hlog, ?_⟩
      intro d hd
      exact ha d (List.mem_append_left _ hd)
  · rintro (⟨rfl, rfl⟩ | ⟨hn, before, after, rfl, ha⟩)
    · exact ⟨log, [], rfl, nofun⟩
    · refine ⟨before, after ++ [e], List.append_assoc _ _ _, ?_⟩
      intro d hd
      rcases List.mem_append.1 hd with hd | hd
      · exact ha d hd
      · rw [List.mem_singleton.1 hd]
        exact hn.symm

/-- Each name that was written has a last write. -/
theorem exists_lastWritten_iff :
    (∃ value, LastWritten log name value) ↔ name ∈ log.map Prod.fst := by
  induction log using List.reverseRecOn with
  | nil =>
    constructor
    · rintro ⟨value, h⟩
      exact absurd h (not_lastWritten_nil name value)
    · nofun
  | append_singleton log e ih =>
    simp only [lastWritten_concat_iff]
    rw [List.map_append, List.mem_append, ← ih, List.map_singleton, List.mem_singleton]
    by_cases hn : name = e.1 <;> simp [hn]

/-- Under each name there is the value last written under it, and no other. -/
def Keeps (log : List (Text × Value)) (a : Attributes) : Prop :=
  ∀ name value, a.get? name = some value ↔ LastWritten log name value

theorem keeps_empty : Keeps [] empty :=
  fun name value => ⟨nofun, fun h => absurd h (not_lastWritten_nil name value)⟩

theorem write_eq_insert (a : Attributes) (w : Write) :
    a.write w = a.insert w.entry.1 w.entry.2 := by
  cases w with
  | insert => rfl
  | set => rfl

theorem Keeps.write (h : Keeps log a) (w : Write) : Keeps (log ++ [w.entry]) (a.write w) := by
  intro name value
  rw [write_eq_insert, get?_insert, lastWritten_concat_iff, ← h]
  split
  case isTrue hn => simp [hn, eq_comm]
  case isFalse hn => simp [hn]

theorem Keeps.foldl (h : Keeps log a) (writes : List Write) :
    Keeps (log ++ writes.map Write.entry) (writes.foldl Attributes.write a) := by
  induction writes generalizing log a with
  | nil => rwa [List.map_nil, List.append_nil]
  | cons w writes ih =>
    rw [List.map_cons, List.append_cons]
    exact ih (h.write w)

/-- Pairs are collected as if they were written one by one. -/
theorem ofList_eq_foldl (pairs : List (Text × Value)) :
    ofList pairs = (pairs.map fun p => Write.insert p.1 p.2).foldl write empty := by
  rw [List.foldl_map]
  rfl

theorem keeps_ofList (pairs : List (Text × Value)) : Keeps pairs (ofList pairs) := by
  have h := keeps_empty.foldl (pairs.map fun p => .insert p.1 p.2)
  have hid : (Write.entry ∘ fun p => .insert p.1 p.2) = id := rfl
  rwa [← ofList_eq_foldl, List.nil_append, List.map_map, hid, List.map_id] at h

/-- A finite map, seen through all that can be asked of it: it holds what was written last under
each name that was written. -/
structure MapOf (log : List (Text × Value)) (a : Attributes) : Prop where
  get?_eq_some_iff : ∀ name value, a.get? name = some value ↔ LastWritten log name value
  get?_eq_none_iff : ∀ name, a.get? name = none ↔ name ∉ log.map Prod.fst
  contains_iff : ∀ name, a.contains name = true ↔ ∃ value, a.get? name = some value
  size_eq : a.size = (log.map Prod.fst).toFinset.card
  isEmpty_iff : a.isEmpty = true ↔ log = []
  nodup_names : (a.toList.map Prod.fst).Nodup
  mem_toList_iff : ∀ name value, (name, value) ∈ a.toList ↔ a.get? name = some value

theorem Keeps.mem_names_iff (h : Keeps log a) :
    name ∈ a.toList.map Prod.fst ↔ name ∈ log.map Prod.fst := by
  rw [Attributes.mem_names_iff, ← exists_lastWritten_iff]
  exact exists_congr (h name)

theorem Keeps.size_eq (h : Keeps log a) : a.size = (log.map Prod.fst).toFinset.card := by
  have hnames : (a.toList.map Prod.fst).toFinset = (log.map Prod.fst).toFinset := by
    ext name
    rw [List.mem_toFinset, List.mem_toFinset, h.mem_names_iff]
  rw [← hnames, List.toFinset_card_of_nodup a.nodup_names, List.length_map]
  rfl

theorem Keeps.isEmpty_iff (h : Keeps log a) : a.isEmpty = true ↔ log = [] := by
  have hnames : a.toList.map Prod.fst = [] ↔ log.map Prod.fst = [] := by
    rw [List.eq_nil_iff_forall_not_mem, List.eq_nil_iff_forall_not_mem]
    exact forall_congr' fun name => not_congr h.mem_names_iff
  rwa [List.map_eq_nil_iff, List.map_eq_nil_iff, ← List.isEmpty_iff] at hnames

theorem Keeps.mapOf (h : Keeps log a) : MapOf log a where
  get?_eq_some_iff := h
  get?_eq_none_iff name := by
    rw [← h.mem_names_iff, Attributes.mem_names_iff, not_exists]
    exact Option.eq_none_iff_forall_ne_some
  contains_iff name := Option.isSome_iff_exists
  size_eq := h.size_eq
  isEmpty_iff := h.isEmpty_iff
  nodup_names := a.nodup_names
  mem_toList_iff _ _ := Attributes.get?_eq_some_iff.symm

/-- Attributes are the finite map of what was last written under each name, in whatever order it
was. They are the same as any others that have the same values, and then no rule tells them apart,
neither by its decision nor by what it reports. -/
theorem writes_make_finite_map (pairs : List (Text × Value)) (writes : List Write) :
    MapOf (pairs ++ writes.map Write.entry) (afterWrites pairs writes) ∧
    ofList pairs = (pairs.map fun p => Write.insert p.1 p.2).foldl write empty ∧
    ∀ b : Attributes,
      (afterWrites pairs writes = b ↔
        ∀ name, (afterWrites pairs writes).get? name = b.get? name) ∧
      ((∀ name, (afterWrites pairs writes).get? name = b.get? name) → ∀ t : Tree,
        t.evaluate (afterWrites pairs writes) = t.evaluate b ∧
        (t.evaluateM (afterWrites pairs writes)).events = (t.evaluateM b).events) := by
  refine ⟨((keeps_ofList pairs).foldl writes).mapOf, ofList_eq_foldl pairs, ?_⟩
  intro b
  constructor
  · constructor
    · rintro rfl name
      rfl
    · exact eq_of_get?
  · intro h t
    rw [eq_of_get? h]
    exact ⟨rfl, rfl⟩

theorem writes_make_finite_map_of_six :
    (∀ name, (afterWrites [(['a'], .int 1), (['b'], .text ['x']), (['a'], .text "ten".toList)]
        [.set ['c'] (7 : Int32), .insert ['b'] (.int 2), .set ['c'] "y".toList]).get? name =
      (ofList [(['c'], .text ['y']), (['b'], .int 2), (['a'], .text "ten".toList)]).get? name) ∧
    (afterWrites [(['a'], .int 1), (['b'], .text ['x']), (['a'], .text "ten".toList)]
        [.set ['c'] (7 : Int32), .insert ['b'] (.int 2), .set ['c'] "y".toList]).size = 3 ∧
    (Tree.leaf "b > 1".toList).evaluate
        (afterWrites [(['a'], .int 1), (['b'], .text ['x']), (['a'], .text "ten".toList)]
          [.set ['c'] (7 : Int32), .insert ['b'] (.int 2), .set ['c'] "y".toList]) = true := by
  have hsame : afterWrites [(['a'], .int 1), (['b'], .text ['x']), (['a'], .text "ten".toList)]
      [.set ['c'] (7 : Int32), .insert ['b'] (.int 2), .set ['c'] "y".toList] =
        ofList [(['c'], .text ['y']), (['b'], .int 2), (['a'], .text "ten".toList)] := by decide
  obtain ⟨hmap, -, heq⟩ := writes_make_finite_map
    [(['a'], .int 1), (['b'], .text ['x']), (['a'], .text "ten".toList)]
    [.set ['c'] (7 : Int32), .insert ['b'] (.int 2), .set ['c'] "y".toList]
  have hget := (heq _).1.1 hsame
  refine ⟨hget, hmap.size_eq.trans (by decide), ?_⟩
  rw [((heq _).2 hget _).1]
  decide

end Attributes

end Eligibility

import Eligibility.Value

namespace Eligibility

/-- The attributes a rule is evaluated against: at most one value for each name, in the order of
the names. -/
structure Attributes where
  entries : List (Text × Value)
  sorted : entries.Pairwise fun a b => a.1 < b.1
  deriving DecidableEq

namespace Attributes

def insertEntry (name : Text) (value : Value) : List (Text × Value) → List (Text × Value)
  | [] => [(name, value)]
  | e :: rest =>
    if name = e.1 then (name, value) :: rest
    else if name < e.1 then (name, value) :: e :: rest
    else e :: insertEntry name value rest

def valueIn? (name : Text) : List (Text × Value) → Option Value
  | [] => none
  | e :: rest => if name = e.1 then some e.2 else valueIn? name rest

theorem mem_insertEntry_imp {name : Text} {value : Value} {entries : List (Text × Value)}
    {e : Text × Value} (h : e ∈ insertEntry name value entries) :
    e = (name, value) ∨ e ∈ entries := by
  induction entries with
  | nil => simpa [insertEntry] using h
  | cons e' rest ih =>
    rw [insertEntry] at h
    split at h
    · rcases List.mem_cons.1 h with h | h
      · exact .inl h
      · exact .inr (List.mem_cons_of_mem _ h)
    · split at h
      · exact (List.mem_cons.1 h)
      · rcases List.mem_cons.1 h with h | h
        · exact .inr (h ▸ List.mem_cons_self)
        · exact (ih h).imp_right (List.mem_cons_of_mem _)

theorem sorted_insertEntry {name : Text} {value : Value} {entries : List (Text × Value)}
    (h : entries.Pairwise fun a b => a.1 < b.1) :
    (insertEntry name value entries).Pairwise fun a b => a.1 < b.1 := by
  induction entries with
  | nil => simp [insertEntry]
  | cons e rest ih =>
    obtain ⟨he, hr⟩ := List.pairwise_cons.1 h
    rw [insertEntry]
    split
    case isTrue hn => exact List.pairwise_cons.2 ⟨fun b hb => hn ▸ he b hb, hr⟩
    case isFalse hn =>
      split
      case isTrue hl =>
        refine List.pairwise_cons.2 ⟨fun b hb => ?_, h⟩
        rcases List.mem_cons.1 hb with rfl | hb
        · exact hl
        · exact List.lt_trans hl (he b hb)
      case isFalse hl =>
        refine List.pairwise_cons.2 ⟨fun b hb => ?_, ih hr⟩
        rcases mem_insertEntry_imp hb with rfl | hb
        · exact Decidable.byContradiction fun h => hn (List.le_antisymm h hl)
        · exact he b hb

theorem valueIn?_insertEntry (name other : Text) (value : Value)
    (entries : List (Text × Value)) :
    valueIn? other (insertEntry name value entries) =
      if other = name then some value else valueIn? other entries := by
  induction entries with
  | nil => rfl
  | cons e rest ih =>
    rw [insertEntry]
    split
    case isTrue hn => by_cases h : other = name <;> simp_all [valueIn?]
    case isFalse hn =>
      split
      · rfl
      · by_cases h : other = e.1 <;> by_cases h' : other = name <;> simp_all [valueIn?]

theorem valueIn?_eq_some_iff_of_distinct {name : Text} {value : Value}
    {entries : List (Text × Value)} (h : entries.Pairwise fun a b => a.1 ≠ b.1) :
    valueIn? name entries = some value ↔ (name, value) ∈ entries := by
  induction entries with
  | nil => exact ⟨nofun, nofun⟩
  | cons e rest ih =>
    obtain ⟨he, hr⟩ := List.pairwise_cons.1 h
    rw [valueIn?, List.mem_cons]
    split
    case isTrue hn =>
      -- The entries behind have other names, so this one is the only one of its name.
      have hrest : (name, value) ∉ rest := by
        intro hm
        exact he _ hm hn.symm
      subst hn
      rw [or_iff_left hrest, Option.some.injEq, Prod.ext_iff, eq_comm, and_iff_right rfl]
    case isFalse hn =>
      have hhead : (name, value) ≠ e := by
        intro heq
        exact hn (congrArg Prod.fst heq)
      rw [ih hr, or_iff_right hhead]

theorem distinct_of_sorted {entries : List (Text × Value)}
    (h : entries.Pairwise fun a b => a.1 < b.1) : entries.Pairwise fun a b => a.1 ≠ b.1 := by
  apply h.imp
  intro a b hab heq
  exact List.lt_irrefl b.1 (heq ▸ hab)

theorem valueIn?_eq_some_iff {name : Text} {value : Value} {entries : List (Text × Value)}
    (h : entries.Pairwise fun a b => a.1 < b.1) :
    valueIn? name entries = some value ↔ (name, value) ∈ entries :=
  valueIn?_eq_some_iff_of_distinct (distinct_of_sorted h)

def empty : Attributes := ⟨[], .nil⟩

/-- Gives an attribute its value; an earlier value of the same name is replaced. -/
def insert (a : Attributes) (name : Text) (value : Value) : Attributes :=
  ⟨insertEntry name value a.entries, sorted_insertEntry a.sorted⟩

def set {α : Type} [ToValue α] (a : Attributes) (name : Text) (value : α) : Attributes :=
  a.insert name (ToValue.toValue value)

def ofList (pairs : List (Text × Value)) : Attributes :=
  pairs.foldl (fun a p => a.insert p.1 p.2) empty

def get? (a : Attributes) (name : Text) : Option Value := valueIn? name a.entries

def contains (a : Attributes) (name : Text) : Bool := (a.get? name).isSome

def size (a : Attributes) : Nat := a.entries.length

def isEmpty (a : Attributes) : Bool := a.entries.isEmpty

def toList (a : Attributes) : List (Text × Value) := a.entries

@[simp] theorem get?_empty (name : Text) : empty.get? name = none := rfl

theorem get?_eq_some_iff {a : Attributes} {name : Text} {value : Value} :
    a.get? name = some value ↔ (name, value) ∈ a.toList := valueIn?_eq_some_iff a.sorted

theorem get?_insert (a : Attributes) (name other : Text) (value : Value) :
    (a.insert name value).get? other = if other = name then some value else a.get? other :=
  valueIn?_insertEntry name other value a.entries

theorem ofList_append (pairs more : List (Text × Value)) :
    ofList (pairs ++ more) = more.foldl (fun a p => a.insert p.1 p.2) (ofList pairs) :=
  List.foldl_append

end Attributes

end Eligibility

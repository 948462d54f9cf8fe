import Eligibility.Json.Basic

namespace Eligibility.Json

variable {name : Text} {known : List Text} {base members others : List (Text × Json)}

/-- The members in any order, and among them others of any names but the known ones. -/
def Widens (known : List Text) (members base : List (Text × Json)) : Prop :=
  ∃ others, members.Perm (base ++ others) ∧ ∀ m ∈ others, m.1 ∉ known

theorem Widens.refl (known : List Text) (base : List (Text × Json)) : Widens known base base := by
  refine ⟨[], ?_, nofun⟩
  rw [List.append_nil]

theorem only?_perm (h : members.Perm base) : only? name members = only? name base := by
  have hf := h.filter fun m => m.1 == name
  rw [only?, only?]
  cases hb : base.filter fun m => m.1 == name with
  | nil =>
    rw [hb] at hf
    rw [hf.eq_nil]
  | cons m ms =>
    rw [hb] at hf
    cases ms with
    | nil => rw [List.perm_singleton.1 hf]
    | cons m' ms =>
      -- Two members of the name are too many, wherever they stand.
      cases hl : members.filter fun m => m.1 == name with
      | nil => rfl
      | cons n ns =>
        cases ns with
        | nil =>
          rw [hl] at hf
          cases List.singleton_perm.1 hf
        | cons n' ns => rfl

theorem only?_append (h : ∀ m ∈ others, m.1 ≠ name) :
    only? name (members ++ others) = only? name members := by
  have hf : others.filter (fun m => m.1 == name) = [] := by
    rw [List.filter_eq_nil_iff]
    intro m hm
    rw [beq_iff_eq]
    exact h m hm
  rw [only?, only?, List.filter_append, hf, List.append_nil]

/-- What stands beside the known members, and in which order they stand, makes no difference. -/
theorem Widens.only? (h : Widens known members base) (hn : name ∈ known) :
    only? name members = Json.only? name base := by
  obtain ⟨others, hperm, hothers⟩ := h
  rw [only?_perm hperm]
  apply only?_append
  intro m hm hname
  exact hothers m hm (hname ▸ hn)

end Eligibility.Json

namespace Eligibility

variable {α β ε : Type} {f : α → Except ε β} {x : α} {xs : List α} {y : β} {ys : List β} {e : ε}

theorem mapM_cons_of_error (h : f x = .error e) : (x :: xs).mapM f = .error e := by
  rw [List.mapM_cons, h]
  rfl

theorem mapM_cons_of_ok (h : f x = .ok y) : (x :: xs).mapM f = (xs.mapM f).map (y :: ·) := by
  rw [List.mapM_cons, h]
  cases xs.mapM f <;> rfl

theorem mapM_congr {g : α → Except ε β} (h : ∀ x ∈ xs, f x = g x) : xs.mapM f = xs.mapM g := by
  induction xs with
  | nil => rfl
  | cons x xs ih =>
    rw [List.mapM_cons, List.mapM_cons, h x List.mem_cons_self,
      ih fun y hy => h y (List.mem_cons_of_mem x hy)]

theorem mapM_eq_ok_iff : xs.mapM f = .ok ys ↔ xs.map f = ys.map .ok := by
  induction xs generalizing ys with
  | nil =>
    cases ys with
    | nil => exact ⟨fun _ => rfl, fun _ => rfl⟩
    | cons y ys => exact ⟨nofun, nofun⟩
  | cons x xs ih =>
    cases hx : f x with
    | error e =>
      rw [mapM_cons_of_error hx, List.map_cons, hx]
      cases ys with
      | nil => exact ⟨nofun, nofun⟩
      | cons y ys => exact ⟨nofun, nofun⟩
    | ok y =>
      rw [mapM_cons_of_ok hx, List.map_cons, hx]
      constructor
      · intro h
        cases hxs : xs.mapM f with
        | error e => rw [hxs] at h; cases h
        | ok zs =>
          rw [hxs] at h
          cases h
          rw [ih.1 hxs, List.map_cons]
      · intro h
        cases ys with
        | nil => cases h
        | cons z ys =>
          obtain ⟨hz, hys⟩ := List.cons.inj h
          cases hz
          rw [ih.2 hys]
          rfl

theorem exists_map_eq_ok (h : ∀ x ∈ xs, ∃ y, f x = .ok y) : ∃ ys : List β, xs.map f = ys.map .ok := by
  induction xs with
  | nil => exact ⟨[], rfl⟩
  | cons x xs ih =>
    obtain ⟨y, hy⟩ := h x List.mem_cons_self
    obtain ⟨ys, hys⟩ := ih fun z hz => h z (List.mem_cons_of_mem x hz)
    refine ⟨y :: ys, ?_⟩
    rw [List.map_cons, hy, hys, List.map_cons]

/-- The error of a list is that of its first member that has one. -/
theorem mapM_eq_error_iff : xs.mapM f = .error e ↔ ∃ before x after,
    xs = before ++ x :: after ∧ (∀ y ∈ before, ∃ z, f y = .ok z) ∧ f x = .error e := by
  constructor
  · intro h
    induction xs with
    | nil => cases h
    | cons x xs ih =>
      cases hx : f x with
      | error e' =>
        rw [mapM_cons_of_error hx] at h
        cases h
        exact ⟨[], x, xs, rfl, nofun, hx⟩
      | ok y =>
        have hxs : xs.mapM f = .error e := by
          rw [mapM_cons_of_ok hx] at h
          cases hxs : xs.mapM f with
          | error e' => rw [hxs] at h; cases h; rfl
          | ok ys => rw [hxs] at h; cases h
        obtain ⟨before, z, after, rfl, hb, hz⟩ := ih hxs
        refine ⟨x :: before, z, after, rfl, ?_, hz⟩
        intro w hw
        rcases List.mem_cons.1 hw with rfl | hw
        · exact ⟨y, hx⟩
        · exact hb w hw
  · rintro ⟨before, x, after, rfl, hb, hx⟩
    induction before with
    | nil => exact mapM_cons_of_error hx
    | cons z before ih =>
      obtain ⟨y, hy⟩ := hb z List.mem_cons_self
      rw [List.cons_append, mapM_cons_of_ok hy, ih fun w hw => hb w (List.mem_cons_of_mem z hw)]
      rfl

/-- A list that is written entry by entry is read back entry by entry. -/
theorem mapM_map_eq_some {write : α → β} {read? : β → Option α} (h : ∀ x, read? (write x) = some x)
    (xs : List α) : (xs.map write).mapM read? = some xs := by
  induction xs with
  | nil => rfl
  | cons x xs ih =>
    rw [List.map_cons, List.mapM_cons, h, ih]
    rfl

end Eligibility

namespace Eligibility

/-- The signed 64-bit integer of that value, if it is in range. -/
def signed64? (n : Int) : Option Int64 :=
  if Int64.minValue.toInt ≤ n ∧ n ≤ Int64.maxValue.toInt then some (Int64.ofInt n) else none

/-- The unsigned 64-bit integer of that value, if it is in range. -/
def unsigned64? (n : Int) : Option UInt64 :=
  if 0 ≤ n ∧ n < UInt64.size then some (UInt64.ofNat n.toNat) else none

theorem signed64?_eq_some {n : Int} {v : Int64} : signed64? n = some v ↔ v.toInt = n := by
  rw [signed64?]
  split
  case isTrue h =>
    rw [Option.some.injEq, ← Int64.toInt_inj,
      Int64.toInt_ofInt_of_le h.1 (Int.lt_of_le_of_lt h.2 (by decide)), eq_comm]
  case isFalse h =>
    have hl : Int64.minValue.toInt ≤ v.toInt := v.le_toInt
    have hu : v.toInt ≤ Int64.maxValue.toInt := Int.le_of_lt_add_one v.toInt_lt
    simp only [reduceCtorEq, false_iff]
    omega

theorem unsigned64?_eq_some {n : Int} {v : UInt64} :
    unsigned64? n = some v ↔ (v.toNat : Int) = n := by
  rw [unsigned64?]
  have hv : v.toNat < UInt64.size := v.toNat_lt
  split
  case isTrue h =>
    have hn : n.toNat < UInt64.size := by omega
    rw [Option.some.injEq, ← UInt64.toNat_inj, UInt64.toNat_ofNat_of_lt' hn]
    omega
  case isFalse h =>
    simp only [reduceCtorEq, false_iff]
    omega

@[simp] theorem signed64?_toInt (v : Int64) : signed64? v.toInt = some v :=
  signed64?_eq_some.2 rfl

@[simp] theorem unsigned64?_toNat (v : UInt64) : unsigned64? v.toNat = some v :=
  unsigned64?_eq_some.2 rfl

end Eligibility

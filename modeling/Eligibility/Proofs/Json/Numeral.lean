import Eligibility.Json.Numeral
import Eligibility.Proofs.Text.Decimal

namespace Eligibility.Json

/-- The texts that can stand behind a value: nothing, or a mark that no numeral goes on with. -/
inductive Ends : Text → Prop
  | nil : Ends []
  | comma (t : Text) : Ends (',' :: t)
  | closeArray (t : Text) : Ends (']' :: t)
  | closeObject (t : Text) : Ends ('\x7d' :: t)

namespace Numeral

variable {rest t : Text} {n : Nat}

theorem not_isDigit_of_ends (h : Ends rest) : ∀ c, rest.head? = some c → c.isDigit = false := by
  cases h with
  | nil => exact nofun
  | comma t | closeArray t | closeObject t => rintro c ⟨⟩; rfl

theorem readFraction_of_ends (h : Ends rest) : readFraction rest = ([], rest) := by
  cases h with
  | nil | comma t | closeArray t | closeObject t => rfl

theorem readExponent_of_ends (h : Ends rest) : readExponent rest = (none, rest) := by
  cases h with
  | nil | comma t | closeArray t | closeObject t => rfl

theorem readWhole?_ofNat (n : Nat) (h : Ends rest) :
    readWhole? (Text.ofNat n ++ rest) = some (Text.ofNat n, rest) := by
  have hn := Text.isNumeral_iff.1 (Text.isNumeral_ofNat n)
  rcases Nat.eq_zero_or_pos n with rfl | hpos
  · rfl
  have hfirst := Text.head?_ofNat hpos
  have htake := Text.takeWhile_stop hn.2 (not_isDigit_of_ends h)
  have hdrop := Text.dropWhile_stop hn.2 (not_isDigit_of_ends h)
  cases ht : Text.ofNat n with
  | nil => exact absurd ht hn.1
  | cons c t =>
    rw [ht] at hfirst hn htake hdrop
    have hc : c.isDigit = true := List.all_eq_true.1 hn.2 c List.mem_cons_self
    rw [List.cons_append] at htake hdrop ⊢
    rw [readWhole?]
    · rw [if_pos hc, htake, hdrop]
    · intro hzero
      exact hfirst (congrArg some hzero)

/-- The numeral of an integer as it is written. -/
def ofInt (n : Int) : Numeral := ⟨n < 0, Text.ofNat n.natAbs, [], none⟩

theorem readUnsigned?_ofNat (negative : Bool) (n : Nat) (h : Ends rest) :
    readUnsigned? negative (Text.ofNat n ++ rest) =
      some (⟨negative, Text.ofNat n, [], none⟩, rest) := by
  rw [readUnsigned?, readWhole?_ofNat n h, Option.map_some]
  dsimp only
  rw [readFraction_of_ends h]
  dsimp only
  rw [readExponent_of_ends h]

theorem exists_head?_ofNat (n : Nat) (rest : Text) :
    ∃ c, (Text.ofNat n ++ rest).head? = some c ∧ c.isDigit = true := by
  obtain ⟨hne, hd⟩ := Text.isNumeral_iff.1 (Text.isNumeral_ofNat n)
  obtain ⟨c, hc, hcd⟩ := Text.exists_head?_of_all hne hd
  refine ⟨c, ?_, hcd⟩
  rw [List.head?_append, hc, Option.some_or]

/-- A number that is written begins with a digit or with a minus sign. -/
theorem exists_head?_ofInt (n : Int) (rest : Text) :
    ∃ c, (Text.ofInt n ++ rest).head? = some c ∧ (c = '-' ∨ c.isDigit = true) := by
  cases n with
  | ofNat n =>
    obtain ⟨c, hc, hcd⟩ := exists_head?_ofNat n rest
    exact ⟨c, hc, .inr hcd⟩
  | negSucc n => exact ⟨'-', rfl, .inl rfl⟩

theorem read?_ofInt (n : Int) (h : Ends rest) :
    read? (Text.ofInt n ++ rest) = some (ofInt n, rest) := by
  cases n with
  | ofNat n =>
    obtain ⟨c, hc, hcd⟩ := exists_head?_ofNat n rest
    rw [Text.ofInt, read?, readUnsigned?_ofNat false n h]
    · rfl
    · intro t ht
      rw [ht] at hc
      cases hc
      cases hcd
  | negSucc n =>
    rw [Text.ofInt, List.cons_append, read?, readUnsigned?_ofNat true (n + 1) h, ofInt,
      decide_eq_true (Int.negSucc_lt_zero n)]
    rfl

/-- As long as the number stays a word, no digit is left. -/
theorem appendDigits_eq (n : Nat) (t : Text)
    (h : t.foldl (fun n c => 10 * n + (c.toNat - 48)) n < UInt64.size) :
    appendDigits n t = (t.foldl (fun n c => 10 * n + (c.toNat - 48)) n, []) := by
  have hle : ∀ (m : Nat) (u : Text), m ≤ u.foldl (fun n c => 10 * n + (c.toNat - 48)) m := by
    intro m u
    induction u generalizing m with
    | nil => exact Nat.le_refl m
    | cons c u ih => exact Nat.le_trans (by omega) (ih (10 * m + (c.toNat - 48)))
  induction t generalizing n with
  | nil => rfl
  | cons c t ih =>
    rw [List.foldl_cons] at h ⊢
    rw [appendDigits, if_pos (Nat.lt_of_le_of_lt (hle _ t) h), ih _ h]

theorem appendDigits_ofNat (h : n < UInt64.size) : appendDigits 0 (Text.ofNat n) = (n, []) := by
  have hv : (Text.ofNat n).foldl (fun n c => 10 * n + (c.toNat - 48)) 0 = n :=
    Text.digitsValue_ofNat n
  rw [appendDigits_eq 0 _ (hv.symm ▸ h), hv]

/-- A numeral without fraction and exponent that fits into a word is in the range of doubles. -/
theorem inRange_ofInt {n : Int} (h : n.natAbs < UInt64.size) : (ofInt n).inRange = true := by
  rw [inRange, ofInt, appendDigits_ofNat h]
  simp [appendDigits, isFinite]

theorem negateIf_natAbs (n : Int) : negateIf (n < 0) n.natAbs = n := by
  rw [negateIf]
  split
  case isTrue hn =>
    have := of_decide_eq_true hn
    omega
  case isFalse hn =>
    have := of_decide_eq_false (Bool.eq_false_of_not_eq_true hn)
    omega

theorem toJson_ofInt {n : Int} (h : n.natAbs < UInt64.size) : (ofInt n).toJson = integer n := by
  have hn : negateIf (ofInt n).negative
      (Text.digitsValue ((ofInt n).whole ++ (ofInt n).fraction)) = n := by
    rw [ofInt, List.append_nil, Text.digitsValue_ofNat, negateIf_natAbs]
  have hzero : ¬ ((ofInt n).negative = true ∧ n = 0) := by
    rintro ⟨hneg, rfl⟩
    cases hneg
  rw [toJson, inRange_ofInt h, hn, Bool.not_true, if_neg Bool.false_ne_true]
  apply if_pos
  exact ⟨rfl, rfl, hzero⟩

end Numeral

end Eligibility.Json

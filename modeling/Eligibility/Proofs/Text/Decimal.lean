import Eligibility.Proofs.Text.Trim
import Eligibility.Text.Decimal
import Mathlib.Data.Nat.Digits.Defs

namespace Eligibility.Text

variable {t : Text} {c : Char}

theorem isNumeral_iff : t.isNumeral = true ↔ t ≠ [] ∧ t.all Char.isDigit = true := by
  rw [isNumeral, Bool.and_eq_true, Bool.not_eq_true', List.isEmpty_eq_false_iff]

/-- The number with the decimal digits of the text, of which the last one counts once. -/
def decimal (t : Text) : Nat := Nat.ofDigits 10 (t.reverse.map fun c => c.toNat - '0'.toNat)

theorem digitsValue_eq_decimal (t : Text) : digitsValue t = decimal t := by
  rw [digitsValue, decimal, Nat.ofDigits_eq_foldr, List.foldr_map, List.foldr_reverse]
  congr 1
  funext n c
  exact Nat.add_comm _ _

theorem natural?_eq_none (hc : c ∈ t) (hd : c.isDigit = false) : natural? t = none := by
  rw [natural?, if_neg]
  intro h
  exact not_mem_of_all (isNumeral_iff.1 h).2 hd hc

theorem integer?_eq_none (hc : c ∈ t) (hd : c.isDigit = false) (hm : c ≠ '-') (hp : c ≠ '+') :
    integer? t = none := by
  unfold integer?
  split
  case h_1 t =>
    rw [natural?_eq_none ((List.mem_cons.1 hc).resolve_left hm) hd]
    rfl
  case h_2 t =>
    rw [natural?_eq_none ((List.mem_cons.1 hc).resolve_left hp) hd]
    rfl
  case h_3 => rw [natural?_eq_none hc hd]; rfl

theorem natural?_of_isNumeral (h : t.isNumeral = true) : natural? t = some (decimal t) := by
  rw [natural?, if_pos h, digitsValue_eq_decimal]

theorem integer?_of_isNumeral (h : t.isNumeral = true) : integer? t = some (decimal t : Int) := by
  unfold integer?
  split
  case h_1 t => cases h
  case h_2 t => cases h
  case h_3 => rw [natural?_of_isNumeral h]; rfl

/-- Digits, after one sign or none, that denote the integer. Leading zeros do not count. -/
inductive Denotes : Text → Int → Prop
  | unsigned {t : Text} (h : t.isNumeral = true) : Denotes t (decimal t)
  | plus {t : Text} (h : t.isNumeral = true) : Denotes ('+' :: t) (decimal t)
  | minus {t : Text} (h : t.isNumeral = true) : Denotes ('-' :: t) (-decimal t)

theorem integer?_of_denotes {n : Int} (h : Denotes t n) : integer? t = some n := by
  cases h with
  | unsigned h => exact integer?_of_isNumeral h
  | plus h => rw [integer?, natural?_of_isNumeral h]; rfl
  | minus h => rw [integer?, natural?_of_isNumeral h]; rfl

theorem isNumeral_of_natural? {m : Nat} (h : natural? t = some m) :
    t.isNumeral = true ∧ decimal t = m := by
  rw [natural?] at h
  split at h
  case isTrue ht =>
    rw [digitsValue_eq_decimal] at h
    exact ⟨ht, Option.some.inj h⟩
  case isFalse => cases h

theorem integer?_eq_some_iff {n : Int} : integer? t = some n ↔ Denotes t n := by
  apply Iff.intro
  · intro h
    revert h
    fun_cases integer? t with
    | case1 t =>
      intro h
      obtain ⟨k, hk, rfl⟩ := Option.map_eq_some_iff.1 h
      obtain ⟨m, hm, hk⟩ := Option.bind_eq_some_iff.1 hk
      cases hk
      obtain ⟨ht, rfl⟩ := isNumeral_of_natural? hm
      exact .minus ht
    | case2 t =>
      intro h
      obtain ⟨m, hm, rfl⟩ := Option.map_eq_some_iff.1 h
      obtain ⟨ht, rfl⟩ := isNumeral_of_natural? hm
      exact .plus ht
    | case3 =>
      intro h
      obtain ⟨m, hm, rfl⟩ := Option.map_eq_some_iff.1 h
      obtain ⟨ht, rfl⟩ := isNumeral_of_natural? hm
      exact .unsigned ht
  · exact integer?_of_denotes

def isSignOrDigit (c : Char) : Bool := c.isDigit || c = '+' || c = '-'

theorem Denotes.all_isSignOrDigit {n : Int} (h : Denotes t n) : t.all isSignOrDigit = true := by
  have hdigits {t : Text} (h : t.isNumeral = true) : t.all isSignOrDigit = true := by
    rw [List.all_eq_true]
    intro c hc
    rw [isSignOrDigit, List.all_eq_true.1 (isNumeral_iff.1 h).2 c hc]
    rfl
  cases h with
  | unsigned h => exact hdigits h
  | plus h => rw [List.all_cons, hdigits h]; rfl
  | minus h => rw [List.all_cons, hdigits h]; rfl

theorem isNumeral_ofNat (n : Nat) : (ofNat n).isNumeral = true := by
  rw [isNumeral_iff, List.all_eq_true]
  apply And.intro
  · exact Nat.toDigits_ne_nil
  · intro c hc
    exact Nat.isDigit_of_mem_toDigits (by decide) (by decide) hc

theorem digitsValue_ofNat (n : Nat) : digitsValue (ofNat n) = n := Nat.ofDigitChars_ten_toDigits

/-- Only zero is written with a zero in front. -/
theorem head?_ofNat {n : Nat} (h : 0 < n) : (ofNat n).head? ≠ some '0' := by
  induction n using Nat.strong_induction_on with
  | _ n ih =>
    rw [ofNat, Nat.toDigits_eq_if (by decide)]
    split
    case isTrue hn =>
      have hdigit : ∀ m < 10, 0 < m → m.digitChar ≠ '0' := by decide
      rw [List.head?_cons, ne_eq, Option.some.injEq]
      exact hdigit n hn h
    case isFalse hn =>
      rw [List.head?_append, Option.or_of_isSome (List.isSome_head?.2 Nat.toDigits_ne_nil)]
      exact ih (n / 10) (by omega) (by omega)

end Eligibility.Text

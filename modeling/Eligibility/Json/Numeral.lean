import Eligibility.Json.Basic
import Eligibility.Text.Decimal

namespace Eligibility.Json

/-- A numeral taken apart: the digits before the point and those after it, and the exponent, if
one is written. -/
structure Numeral where
  negative : Bool
  whole : Text
  fraction : Text
  exponent : Option Int

namespace Numeral

/-- Reads the digits before the point. Only a lone zero may begin with one. -/
def readWhole? (t : Text) : Option (Text × Text) :=
  match t with
  | '0' :: rest => some (['0'], rest)
  | c :: _ => if c.isDigit then some (t.takeWhile Char.isDigit, t.dropWhile Char.isDigit) else none
  | [] => none

/-- Reads a point and the digits after it, of which there is at least one. -/
def readFraction : Text → Text × Text
  | '.' :: c :: t =>
    if c.isDigit then (c :: t.takeWhile Char.isDigit, t.dropWhile Char.isDigit)
    else ([], '.' :: c :: t)
  | t => ([], t)

def readExponentDigits? (t : Text) : Option (Nat × Text) :=
  (Text.natural? (t.takeWhile Char.isDigit)).map (·, t.dropWhile Char.isDigit)

def readSigned? : Text → Option (Int × Text)
  | '-' :: t => (readExponentDigits? t).map fun p => (-(p.1 : Int), p.2)
  | '+' :: t => (readExponentDigits? t).map fun p => ((p.1 : Int), p.2)
  | t => (readExponentDigits? t).map fun p => ((p.1 : Int), p.2)

/-- Reads an exponent with its letter, if a whole one is there. -/
def readExponent : Text → Option Int × Text
  | 'e' :: t => (readSigned? t).elim (none, 'e' :: t) fun p => (some p.1, p.2)
  | 'E' :: t => (readSigned? t).elim (none, 'E' :: t) fun p => (some p.1, p.2)
  | t => (none, t)

def readUnsigned? (negative : Bool) (t : Text) : Option (Numeral × Text) :=
  (readWhole? t).map fun (whole, afterWhole) =>
    let (fraction, afterFraction) := readFraction afterWhole
    let (exponent, rest) := readExponent afterFraction
    (⟨negative, whole, fraction, exponent⟩, rest)

def read? : Text → Option (Numeral × Text)
  | '-' :: t => readUnsigned? true t
  | t => readUnsigned? false t

/-- Appends digits to a number as long as it stays a word of 64 bits, and gives the digits left. -/
def appendDigits : (n : Nat) → Text → Nat × Text
  | n, [] => (n, [])
  | n, c :: t =>
    if 10 * n + (c.toNat - 48) < UInt64.size then appendDigits (10 * n + (c.toNat - 48)) t
    else (n, c :: t)

/-- The nearest number with at most 53 significant bits; of two, the even one. -/
def round53 (n : Nat) : Nat :=
  let bits := n.log2 - 52
  let kept := n >>> bits
  let lost := n - kept <<< bits
  if 1 <<< bits < 2 * lost ∨ 1 <<< bits = 2 * lost ∧ kept % 2 = 1 then (kept + 1) <<< bits
  else kept <<< bits

/-- Whether `m` times the `e`-th power of ten is a finite double when both factors and their
product are rounded. -/
def isFinite (m : Nat) (e : Int) : Bool :=
  m == 0 || e ≤ 0 ||
    (e ≤ 308 && round53 m * round53 (Nat.pow 10 e.toNat) < 1 <<< 1024 - 1 <<< 970)

/-- Whether the numeral is in the range of doubles. Of its digits, those count that fit into 64
bits. -/
def inRange (n : Numeral) : Bool :=
  let (m, wholeLeft) := appendDigits 0 n.whole
  let (m', fractionLeft) := appendDigits m n.fraction
  isFinite m' (n.exponent.getD 0 + wholeLeft.length + fractionLeft.length - n.fraction.length)

def negateIf (negative : Bool) (n : Nat) : Int := if negative then -(n : Int) else n

def toJson (n : Numeral) : Json :=
  if !n.inRange then garbled
  else
    let digits := negateIf n.negative (Text.digitsValue (n.whole ++ n.fraction))
    if n.fraction.isEmpty ∧ n.exponent = none ∧ ¬(n.negative = true ∧ digits = 0) then
      integer digits
    else decimal digits (n.exponent.getD 0 - n.fraction.length)

theorem length_readWhole? {t whole rest : Text} (h : readWhole? t = some (whole, rest)) :
    rest.length < t.length := by
  unfold readWhole? at h
  split at h
  · cases h
    simp
  · next c u _ =>
    split at h
    case isTrue hc =>
      cases h
      have := Text.length_dropWhile_le Char.isDigit u
      simp only [List.dropWhile_cons_of_pos hc, List.length_cons]
      omega
    case isFalse => cases h
  · cases h

theorem length_readFraction (t : Text) : (readFraction t).2.length ≤ t.length := by
  unfold readFraction
  split
  · next c u =>
    split
    · have := Text.length_dropWhile_le Char.isDigit u
      simp only [List.length_cons]
      omega
    · simp
  · simp

theorem length_readSigned? {t rest : Text} {e : Int} (h : readSigned? t = some (e, rest)) :
    rest.length ≤ t.length := by
  have hd {u : Text} {n : Nat} (h : readExponentDigits? u = some (n, rest)) :
      rest.length ≤ u.length := by
    obtain ⟨_, _, hn⟩ := Option.map_eq_some_iff.1 h
    cases hn
    exact Text.length_dropWhile_le Char.isDigit u
  unfold readSigned? at h
  split at h <;> obtain ⟨⟨n, r⟩, hp, he⟩ := Option.map_eq_some_iff.1 h <;> cases he <;>
    have hl : r.length ≤ _ := hd hp <;> simp only [List.length_cons] <;> omega

theorem length_readExponent (t : Text) : (readExponent t).2.length ≤ t.length := by
  unfold readExponent
  split
  · next u =>
    cases h : readSigned? u with
    | none => simp
    | some p => exact Nat.le_succ_of_le (length_readSigned? h)
  · next u =>
    cases h : readSigned? u with
    | none => simp
    | some p => exact Nat.le_succ_of_le (length_readSigned? h)
  · exact Nat.le_refl _

theorem length_readUnsigned? {negative : Bool} {t rest : Text} {n : Numeral}
    (h : readUnsigned? negative t = some (n, rest)) : rest.length < t.length := by
  obtain ⟨⟨whole, u⟩, hw, he⟩ := Option.map_eq_some_iff.1 h
  cases he
  exact Nat.lt_of_le_of_lt (length_readExponent _)
    (Nat.lt_of_le_of_lt (length_readFraction _) (length_readWhole? hw))

theorem length_read? {t rest : Text} {n : Numeral} (h : read? t = some (n, rest)) :
    rest.length < t.length := by
  unfold read? at h
  split at h
  · exact Nat.lt_succ_of_lt (length_readUnsigned? h)
  · exact length_readUnsigned? h

end Numeral

end Eligibility.Json

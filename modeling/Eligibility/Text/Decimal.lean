import Eligibility.Text.Basic

namespace Eligibility.Text

def isNumeral (t : Text) : Bool := !t.isEmpty && t.all Char.isDigit

def digitsValue (t : Text) : Nat := t.foldl (fun n c => 10 * n + (c.toNat - 48)) 0

/-- The number that digits denote, however many there are; leading zeros change nothing. -/
def natural? (t : Text) : Option Nat := if t.isNumeral then some (digitsValue t) else none

/-- The number that digits after at most one sign denote. -/
def integer? : Text → Option Int
  | '-' :: t => (natural? t).map fun n => -(n : Int)
  | '+' :: t => (natural? t).map Int.ofNat
  | t => (natural? t).map Int.ofNat

def ofNat (n : Nat) : Text := Nat.toDigits 10 n

/-- The shortest digits of a number, after a minus sign if it is negative. -/
def ofInt : Int → Text
  | .ofNat n => ofNat n
  | .negSucc n => '-' :: ofNat (n + 1)

end Eligibility.Text

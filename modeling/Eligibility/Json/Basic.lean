import Eligibility.Text.Basic

namespace Eligibility

/-- The value of a JSON document. Members keep their order and may share a name. A numeral with a
fraction or an exponent is a decimal, and so is minus zero. Text that has the shape of a value and
denotes none, such as a string with half a surrogate pair, is garbled. -/
inductive Json where
  | null
  | bool (b : Bool)
  | integer (n : Int)
  | decimal (mantissa exponent : Int)
  | string (t : Text)
  | array (items : List Json)
  | object (members : List (Text × Json))
  | garbled

namespace Json

/-- Whether nothing in the value is garbled and its arrays and objects nest at most so many levels
deep. -/
def fits : (levels : Nat) → Json → Bool
  | _, garbled => false
  | 0, array _ => false
  | 0, object _ => false
  | levels + 1, array items => items.all (fits levels)
  | levels + 1, object members => members.all fun m => fits levels m.2
  | _, _ => true

def only? (name : Text) (members : List (Text × Json)) : Option Json :=
  match members.filter fun m => m.1 == name with
  | [m] => some m.2
  | _ => none

theorem mem_of_only? {name : Text} {members : List (Text × Json)} {j : Json}
    (h : only? name members = some j) : (name, j) ∈ members := by
  rw [only?] at h
  split at h
  case h_1 m hm =>
    have hf := List.mem_filter.1 (hm ▸ List.mem_singleton_self m)
    have hn : m.1 = name := by simpa using hf.2
    cases h
    exact hn ▸ hf.1
  case h_2 => cases h

theorem sizeOf_lt_of_only? {name : Text} {members : List (Text × Json)} {j : Json}
    (h : only? name members = some j) : sizeOf j < sizeOf (object members) := by
  have hm := List.sizeOf_lt_of_mem (mem_of_only? h)
  simp only [Prod.mk.sizeOf_spec, object.sizeOf_spec] at hm ⊢
  omega

end Json

end Eligibility

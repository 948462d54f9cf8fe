import Eligibility.Text.Decimal

namespace Eligibility

/-- What an attribute can be. Numbers and texts are never taken for each other. -/
inductive Value where
  | int (n : Int64)
  | text (t : Text)
  deriving DecidableEq

namespace Value

def asInt? : Value → Option Int64
  | int n => some n
  | text _ => none

def asText? : Value → Option Text
  | int _ => none
  | text t => some t

/-- A number stands as its digits, a text between single quotes. -/
def display : Value → Text
  | int n => Text.ofInt n.toInt
  | text t => '\'' :: t ++ ['\'']

end Value

/-- What can be given where an attribute's value is expected. -/
class ToValue (α : Type) where
  toValue : α → Value

instance : ToValue Value := ⟨id⟩

instance : ToValue Int64 := ⟨.int⟩

instance : ToValue Int32 := ⟨fun n => .int n.toInt64⟩

instance : ToValue Text := ⟨.text⟩

end Eligibility

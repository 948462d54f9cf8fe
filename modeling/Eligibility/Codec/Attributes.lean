import Eligibility.Attributes
import Eligibility.Json.Reader
import Eligibility.Json.Writer
import Eligibility.Word

namespace Eligibility

namespace Value

def toJson : Value → Json
  | int n => .integer n.toInt
  | text t => .string t

/-- Only integers of 64 bits and strings are values. -/
def ofJson? : Json → Option Value
  | .integer n => (signed64? n).map int
  | .string t => some (text t)
  | _ => none

def encode (v : Value) : Text := v.toJson.write

def decode? (t : Text) : Option Value := (Json.read? t).bind ofJson?

@[simp] theorem ofJson?_toJson (v : Value) : ofJson? v.toJson = some v := by
  cases v <;> simp [toJson, ofJson?]

end Value

namespace Attributes

def toJson (a : Attributes) : Json := .object (a.toList.map fun e => (e.1, e.2.toJson))

/-- Every member of the object has to be a value. Of members that share a name, the last one
counts. -/
def ofJson? : Json → Option Attributes
  | .object members => (members.mapM fun m => (Value.ofJson? m.2).map (m.1, ·)).map ofList
  | _ => none

def encode (a : Attributes) : Text := a.toJson.write

def decode? (t : Text) : Option Attributes := (Json.read? t).bind ofJson?

end Attributes

end Eligibility

import Eligibility.Json.Reader
import Eligibility.Json.Writer
import Eligibility.Store.Basic
import Eligibility.Word

namespace Eligibility.StoredRule

def idName : Text := ['i', 'd']

def nameName : Text := ['n', 'a', 'm', 'e']

def textName : Text := ['r', 'u', 'l', 'e', 'S', 't', 'r', 'i', 'n', 'g']

def toJson (r : StoredRule) : Json :=
  .object [(idName, .integer r.id.toNat), (nameName, .string r.name), (textName, .string r.text)]

def ofParts? : (id name text : Json) → Option StoredRule
  | .integer n, .string name, .string text => (unsigned64? n).map (⟨·, name, text⟩)
  | _, _, _ => none

/-- The rule that a value stands for: an object in which each of the three members is there once
and others do not count, or an array of the three. -/
def ofJson? : Json → Option StoredRule
  | .object members => do
    ofParts? (← Json.only? idName members) (← Json.only? nameName members)
      (← Json.only? textName members)
  | .array [id, name, text] => ofParts? id name text
  | _ => none

def encode (r : StoredRule) : Text := r.toJson.write

def decode? (t : Text) : Option StoredRule := (Json.read? t).bind ofJson?

end Eligibility.StoredRule

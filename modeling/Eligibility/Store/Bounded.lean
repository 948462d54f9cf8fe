import Eligibility.Store.Basic

namespace Eligibility

/-- A store with room for so many rules, which may be unable to list them. -/
structure BoundedStore where
  capacity : Nat
  listFails : Bool
  rules : Array StoredRule

namespace BoundedStore

def empty (capacity : Nat) (listFails : Bool) : BoundedStore := ⟨capacity, listFails, #[]⟩

/-- Any name and any text will do while there is room. The ids count from 100. -/
def create (name text : Text) (s : BoundedStore) : Except StoreError StoredRule × BoundedStore :=
  if s.capacity ≤ s.rules.size then (.error (.backend "store is full"), s)
  else
    let rule : StoredRule := ⟨UInt64.ofNat (100 + s.rules.size), name, text⟩
    (.ok rule, { s with rules := s.rules.push rule })

def listAll (s : BoundedStore) : Except StoreError (List StoredRule) × BoundedStore :=
  (if s.listFails then .error (.backend "store is offline") else .ok s.rules.toList, s)

instance : RuleStore BoundedStore := ⟨create, listAll⟩

end BoundedStore

end Eligibility

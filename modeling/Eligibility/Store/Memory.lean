import Eligibility.Store.Basic

namespace Eligibility

/-- A store that keeps its rules in the order in which they were created. -/
structure MemoryStore where
  rules : Array StoredRule
  nextId : UInt64

namespace MemoryStore

/-- No rules; the first one will have the id 1. -/
def empty : MemoryStore := ⟨#[], 1⟩

/-- Both fields are required, and the name is looked at first. A rule that is refused uses up no
id. -/
def create (name text : Text) (s : MemoryStore) : Except StoreError StoredRule × MemoryStore :=
  if name.isEmpty then (.error (.missingField "name"), s)
  else if text.isEmpty then (.error (.missingField "rule_text"), s)
  else
    let rule : StoredRule := ⟨s.nextId, name, text⟩
    (.ok rule, ⟨s.rules.push rule, s.nextId + 1⟩)

instance : RuleStore MemoryStore where
  create := create
  listAll s := (.ok s.rules.toList, s)

end MemoryStore

end Eligibility

import Eligibility.Codec.Attributes
import Eligibility.Codec.StoredRule
import Eligibility.Proofs.Attributes
import Eligibility.Proofs.Json.Members
import Eligibility.Proofs.Json.Reader

namespace Eligibility

open Json (Widens)

variable {d : Text} {ms : List (Text × Json)} {pairs : List (Text × Value)}

theorem natAbs_toInt_lt (n : Int64) : n.toInt.natAbs < UInt64.size := by
  have hl := n.le_toInt
  have hu := n.toInt_lt
  have hsize : (2 : Int) ^ 63 < UInt64.size := by decide
  omega

theorem natAbs_toNat_lt (n : UInt64) : (n.toNat : Int).natAbs < UInt64.size := by
  rw [Int.natAbs_natCast]
  exact n.toNat_lt

namespace Value

theorem plain_toJson (v : Value) : v.toJson.Plain := by
  cases v with
  | int n => exact .integer (natAbs_toInt_lt n)
  | text t => exact .string t

theorem decode?_of_read? {v : Value} (h : Json.read? d = some v.toJson) : decode? d = some v := by
  rw [decode?, h, Option.bind_some, ofJson?_toJson]

end Value

namespace Attributes

def member (p : Text × Value) : Text × Json := (p.1, p.2.toJson)

theorem ofJson?_member (p : Text × Value) :
    (Value.ofJson? (member p).2).map ((member p).1, ·) = some p := by
  rw [member, Value.ofJson?_toJson, Option.map_some]

theorem plain_members (pairs : List (Text × Value)) : (Json.object (pairs.map member)).Plain := by
  apply Json.Plain.object
  rw [List.forall_mem_map]
  intro p _
  exact p.2.plain_toJson

/-- The order in which attributes are written makes no difference. -/
theorem decode?_of_read? {a : Attributes} (hperm : pairs.Perm a.toList)
    (h : Json.read? d = some (.object (pairs.map member))) : decode? d = some a := by
  rw [decode?, h, Option.bind_some, ofJson?, mapM_map_eq_some ofJson?_member,
    Option.map_some, ofList_of_perm hperm]

end Attributes

namespace StoredRule

/-- What a stored rule is written as. -/
def members (r : StoredRule) : List (Text × Json) :=
  [("id".toList, .integer r.id.toNat), ("name".toList, .string r.name),
    ("ruleString".toList, .string r.text)]

theorem plain_members (r : StoredRule) : ∀ m ∈ r.members, m.2.Plain := by
  simp only [members, List.forall_mem_cons]
  exact ⟨.integer (natAbs_toNat_lt r.id), .string r.name, .string r.text, nofun⟩

/-- The three members are enough, wherever they stand. -/
theorem decode?_of_read? {r : StoredRule}
    (hw : Widens ["id".toList, "name".toList, "ruleString".toList] ms r.members)
    (h : Json.read? d = some (.object ms)) : decode? d = some r := by
  have hid : Json.only? idName ms = some (.integer r.id.toNat) := hw.only? (by decide)
  have hname : Json.only? nameName ms = some (.string r.name) := hw.only? (by decide)
  have htext : Json.only? textName ms = some (.string r.text) := hw.only? (by decide)
  rw [decode?, h, Option.bind_some, ofJson?, hid, hname, htext, Option.bind_eq_bind,
    Option.bind_some, Option.bind_some, Option.bind_some, ofParts?, unsigned64?_toNat,
    Option.map_some]

end StoredRule

/-- Values, attributes and stored rules come back from their documents as they were. The attributes
can be written in any order. So can the members of a stored rule, and with others among them. -/
theorem decode?_encode :
    (∀ v : Value, Value.decode? v.encode = some v) ∧
    (∀ a : Attributes, Attributes.decode? a.encode = some a ∧
      ∀ (d : Text) (pairs : List (Text × Value)), pairs.Perm a.toList →
        Json.read? d = some (.object (pairs.map fun p => (p.1, p.2.toJson))) →
        Attributes.decode? d = some a) ∧
    ∀ r : StoredRule, StoredRule.decode? r.encode = some r ∧
      Json.read? r.encode = some (.object r.members) ∧
      ∀ (d : Text) (ms : List (Text × Json)),
        Widens ["id".toList, "name".toList, "ruleString".toList] ms r.members →
        Json.read? d = some (.object ms) → StoredRule.decode? d = some r := by
  refine ⟨fun v => ?_, fun a => ?_, fun r => ?_⟩
  · exact Value.decode?_of_read? (Json.read?_write v.plain_toJson)
  · apply And.intro
    · apply Attributes.decode?_of_read? (List.Perm.refl a.toList)
      exact Json.read?_write (Attributes.plain_members a.toList)
    · intro d pairs hperm h
      exact Attributes.decode?_of_read? hperm h
  · have hread : Json.read? r.encode = some (.object r.members) :=
      Json.read?_write (.object r.plain_members)
    refine ⟨StoredRule.decode?_of_read? (.refl _ _) hread, hread, fun d ms hw h => ?_⟩
    exact StoredRule.decode?_of_read? hw h

theorem decode?_extremes_in_other_order :
    [(['b'], .text ['7']), (['a'], .int Int64.minValue)].Perm
      (Attributes.ofList [(['a'], .int Int64.minValue), (['b'], .text ['7'])]).toList ∧
    Attributes.decode? "\x7b\"b\":\"7\",\"a\":-9223372036854775808\x7d".toList =
      some (.ofList [(['a'], .int Int64.minValue), (['b'], .text ['7'])]) ∧
    StoredRule.decode? ("\x7b\"x\":[1],\"ruleString\":\"\",".toList ++
        "\"name\":\"R\",\"id\":18446744073709551615\x7d".toList) =
      some ⟨18446744073709551615, ['R'], []⟩ := by
  have hperm : [(['b'], .text ['7']), (['a'], .int Int64.minValue)].Perm
      (Attributes.ofList [(['a'], .int Int64.minValue), (['b'], .text ['7'])]).toList := by decide
  have hread : Json.read? "\x7b\"b\":\"7\",\"a\":-9223372036854775808\x7d".toList =
      some (.object ([(['b'], .text ['7']), (['a'], .int Int64.minValue)].map Attributes.member)) :=
    Json.read?_of_eq_write (Attributes.plain_members _) (by decide)
  have hw : Widens ["id".toList, "name".toList, "ruleString".toList]
      (StoredRule.members ⟨18446744073709551615, ['R'], []⟩ ++
        [(['x'], Json.array [.integer 1])]).reverse
      (StoredRule.members ⟨18446744073709551615, ['R'], []⟩) :=
    ⟨[(['x'], .array [.integer 1])], List.reverse_perm _, by decide⟩
  have hreadRule : Json.read? ("\x7b\"x\":[1],\"ruleString\":\"\",".toList ++
      "\"name\":\"R\",\"id\":18446744073709551615\x7d".toList) = some (.object
      (StoredRule.members ⟨18446744073709551615, ['R'], []⟩ ++
        [(['x'], Json.array [.integer 1])]).reverse) := by
    apply Json.read?_of_eq_write
    · apply Json.Plain.object
      simp only [List.mem_reverse, List.forall_mem_append, List.forall_mem_singleton]
      exact ⟨StoredRule.plain_members _,
        .array (List.forall_mem_singleton.2 (.integer (by decide)))⟩
    · decide
  exact ⟨hperm, (decode?_encode.2.1 _).2 _ _ hperm hread,
    (decode?_encode.2.2 _).2.2 _ _ hw hreadRule⟩

end Eligibility

import Eligibility.Proofs.Condition.Comparison
import Eligibility.Proofs.Condition.Grammar

namespace Eligibility

variable {left name numeral right : Text} {n : Int} {o : Order}

theorem Order.relation_opposite {v : Int} : o.opposite.relation v n ↔ ¬ o.relation v n := by
  rw [← Order.holds_iff, Order.holds_opposite, ← Order.holds_iff, Bool.not_eq_true,
    Bool.not_eq_true']

namespace Text

theorem isBlank_of_isSignOrDigit {c : Char} (h : isSignOrDigit c = true) : isBlank c = false := by
  rw [isSignOrDigit, Bool.or_eq_true, Bool.or_eq_true, decide_eq_true_iff, decide_eq_true_iff] at h
  rcases h with (h | rfl) | rfl
  · exact Condition.isBlank_of_isDigit h
  · rfl
  · rfl

theorem Denotes.trim_eq (h : Denotes numeral n) : numeral.trim = numeral :=
  (Trimmed.of_all (fun _ => isBlank_of_isSignOrDigit) h.all_isSignOrDigit).trim_eq

end Text

namespace Comparison

theorem threshold?_of_denotes (hn : Text.Denotes numeral n) (hr : numeral.PadsTo right) :
    threshold? right = signed64? n := by
  rw [threshold?, hr.trim_eq, hn.trim_eq, Text.integer?_of_denotes hn]
  rfl

theorem ofText_of_pads (hgt : '>' ∉ name) (hlt : '<' ∉ name) (hl : name.PadsTo left)
    (hn : Text.Denotes numeral n) (hr : numeral.PadsTo right) (o : Order) :
    ofText (left ++ (Comparator.order o).symbol ++ right) = order o name.trim right := by
  have hnumeral {d : Char} (hd : Text.isSignOrDigit d = false) : d ∉ numeral :=
    Text.not_mem_of_all hn.all_isSignOrDigit hd
  have hhead : ∀ d, right.head? = some d → d ≠ '=' := by
    rintro d hd rfl
    exact hr.not_mem (hnumeral rfl) rfl (List.mem_of_head? hd)
  rw [List.append_assoc, ofText_symbol (hl.not_mem hgt rfl) (hl.not_mem hlt rfl)
    (hr.not_mem (hnumeral rfl) rfl) hhead, hl.trim_eq]

end Comparison

theorem evaluateCondition_order_iff (hgt : '>' ∉ name) (hlt : '<' ∉ name) (hl : name.PadsTo left)
    (hn : Text.Denotes numeral n) (hr : numeral.PadsTo right) (o : Order) (a : Attributes) :
    evaluateCondition (left ++ (Comparator.order o).symbol ++ right) a = true ↔
      (-2 ^ 63 ≤ n ∧ n ≤ 2 ^ 63 - 1) ∧
        ∃ v, a.get? name.trim = some (.int v) ∧ o.relation v.toInt n := by
  rw [evaluateCondition, evaluateConditionM, Comparison.ofText_of_pads hgt hlt hl hn hr]
  exact Comparison.answer_check_order_iff (Comparison.threshold?_of_denotes hn hr)

/-- An attribute is compared with a number exactly, however the number is written and whatever
blanks stand around the two: a comparison holds where the number is a 64-bit integer and the
attribute is one that is so related to it. Of a comparison and the opposite one exactly one holds of
any integer; with a number out of range, none does. -/
theorem evaluateCondition_order_exact (hgt : '>' ∉ name) (hlt : '<' ∉ name)
    (hl : name.PadsTo left) (hn : Text.Denotes numeral n) (hr : numeral.PadsTo right)
    (a : Attributes) :
    (∀ o, evaluateCondition (left ++ (Comparator.order o).symbol ++ right) a = true ↔
      (-2 ^ 63 ≤ n ∧ n ≤ 2 ^ 63 - 1) ∧
        ∃ v, a.get? name.trim = some (.int v) ∧ o.relation v.toInt n) ∧
    (-2 ^ 63 ≤ n ∧ n ≤ 2 ^ 63 - 1 → ∀ v, a.get? name.trim = some (.int v) → ∀ o : Order,
      evaluateCondition (left ++ (Comparator.order o.opposite).symbol ++ right) a =
        !evaluateCondition (left ++ (Comparator.order o).symbol ++ right) a) ∧
    (n < -2 ^ 63 ∨ 2 ^ 63 - 1 < n → ∀ o,
      evaluateCondition (left ++ (Comparator.order o).symbol ++ right) a = false) := by
  have hiff (o : Order) := evaluateCondition_order_iff hgt hlt hl hn hr o a
  refine ⟨hiff, ?_, ?_⟩
  · intro hrange v hv o
    have hrelation (o : Order) :
        evaluateCondition (left ++ (Comparator.order o).symbol ++ right) a = true ↔
          o.relation v.toInt n := by
      rw [hiff]
      constructor
      · rintro ⟨-, w, hw, ho⟩
        cases hv.symm.trans hw
        exact ho
      · intro ho
        exact ⟨hrange, v, hv, ho⟩
    rw [Bool.eq_iff_iff, hrelation, Order.relation_opposite, Bool.not_eq_true', ← Bool.not_eq_true,
      hrelation]
  · intro hrange o
    rw [← Bool.not_eq_true, hiff]
    rintro ⟨hin, -⟩
    omega

/-- The attribute's name ends in an equals sign, and the number is the least one in range. -/
theorem evaluateCondition_least_integer :
    (Text.PadsTo "n=".toList "\tn= ".toList ∧
      Text.Denotes "-009223372036854775808".toList (-2 ^ 63) ∧
      Text.PadsTo "-009223372036854775808".toList " -009223372036854775808\n".toList) ∧
    evaluateCondition ("\tn= ".toList ++ ['<', '='] ++ " -009223372036854775808\n".toList)
      (Attributes.empty.insert "n=".toList (.int Int64.minValue)) = true ∧
    evaluateCondition ("\tn= ".toList ++ ['>'] ++ " -009223372036854775808\n".toList)
      (Attributes.empty.insert "n=".toList (.int Int64.minValue)) = false := by
  have hdecimal : Text.decimal "009223372036854775808".toList = 2 ^ 63 := by
    rw [← Text.digitsValue_eq_decimal]
    decide
  have hn : Text.Denotes "-009223372036854775808".toList (-2 ^ 63) := by
    have h := Text.Denotes.minus (t := "009223372036854775808".toList) (by decide)
    rwa [hdecimal] at h
  have hl : Text.PadsTo "n=".toList "\tn= ".toList := ⟨['\t'], [' '], by decide, rfl, rfl⟩
  have hr : Text.PadsTo "-009223372036854775808".toList " -009223372036854775808\n".toList :=
    ⟨[' '], ['\n'], by decide, rfl, rfl⟩
  obtain ⟨hiff, hopposite, -⟩ := evaluateCondition_order_exact (by decide) (by decide) hl hn hr
    (Attributes.empty.insert "n=".toList (.int Int64.minValue))
  have hrange : -2 ^ 63 ≤ (-2 ^ 63 : Int) ∧ (-2 ^ 63 : Int) ≤ 2 ^ 63 - 1 := by decide
  have hget : (Attributes.empty.insert "n=".toList (.int Int64.minValue)).get? "n=".toList =
      some (.int Int64.minValue) := by decide
  have htrue := (hiff .atMost).2 ⟨hrange, Int64.minValue, hget, Order.holds_iff.1 (by decide)⟩
  have hfalse := hopposite hrange Int64.minValue hget .atMost
  rw [htrue] at hfalse
  exact ⟨⟨hl, hn, hr⟩, htrue, hfalse⟩

end Eligibility

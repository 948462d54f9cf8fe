import Eligibility.Comparison
import Eligibility.Condition
import Eligibility.Proofs.Text.Cut
import Eligibility.Proofs.Text.Decimal

namespace Eligibility

/-- What a comparison asks of the number and the threshold. -/
def Order.relation : Order → Int → Int → Prop
  | .above => (· > ·)
  | .atLeast => (· ≥ ·)
  | .below => (· < ·)
  | .atMost => (· ≤ ·)

theorem Order.holds_iff {o : Order} {v n : Int} : o.holds v n = true ↔ o.relation v n := by
  cases o <;> exact decide_eq_true_iff

namespace Comparison

variable {name s before after left right threshold expected : Text} {o strict inclusive : Order}
  {a : Attributes} {n : Int}

theorem ofThreshold_inclusive : ofThreshold strict inclusive name ('=' :: threshold) =
    order inclusive name.trim threshold := rfl

theorem ofThreshold_strict (h : ∀ d, threshold.head? = some d → d ≠ '=') :
    ofThreshold strict inclusive name threshold = order strict name.trim threshold := by
  unfold ofThreshold
  split
  case h_1 threshold => exact absurd rfl (h '=' rfl)
  case h_2 => rfl

theorem ofText_above (h : '>' ∉ before) :
    ofText (before ++ '>' :: after) = ofThreshold .above .atLeast before after := by
  rw [ofText, Text.cut?_char h]

theorem ofText_below (h : '>' ∉ before ++ '<' :: after) (hb : '<' ∉ before) :
    ofText (before ++ '<' :: after) = ofThreshold .below .atMost before after := by
  rw [ofText, Text.cut?_char_eq_none h, Text.cut?_char hb]

theorem ofText_equality (h : '>' ∉ before ++ '=' :: after) (h' : '<' ∉ before ++ '=' :: after)
    (hb : '=' ∉ before) : ofText (before ++ '=' :: after) =
      equality before.trim (after.trim.filter (· ≠ '\'')) := by
  rw [ofText, Text.cut?_char_eq_none h, Text.cut?_char_eq_none h', Text.cut?_char hb]

theorem not_mem_between {d : Char} {x s y : Text} (hx : d ∉ x) (hs : d ∉ s) (hy : d ∉ y) :
    d ∉ x ++ (s ++ y) := by
  rw [List.mem_append, List.mem_append]
  rintro (h | h | h)
  · exact hx h
  · exact hs h
  · exact hy h

/-- Around the first comparator of a text stand the attribute and the threshold. -/
theorem ofText_symbol (hgt : '>' ∉ left) (hlt : '<' ∉ left) (hgt' : '>' ∉ right)
    (heq : ∀ d, right.head? = some d → d ≠ '=') (o : Order) :
    ofText (left ++ ((Comparator.order o).symbol ++ right)) = order o left.trim right := by
  cases o with
  | above =>
    change ofText (left ++ '>' :: right) = _
    rw [ofText_above hgt, ofThreshold_strict heq]
  | atLeast =>
    change ofText (left ++ '>' :: '=' :: right) = _
    rw [ofText_above hgt, ofThreshold_inclusive]
  | below =>
    have hall : '>' ∉ left ++ '<' :: right := not_mem_between (s := ['<']) hgt (by decide) hgt'
    change ofText (left ++ '<' :: right) = _
    rw [ofText_below hall hlt, ofThreshold_strict heq]
  | atMost =>
    have hall : '>' ∉ left ++ '<' :: '=' :: right :=
      not_mem_between (s := ['<', '=']) hgt (by decide) hgt'
    change ofText (left ++ '<' :: '=' :: right) = _
    rw [ofText_below hall hlt, ofThreshold_inclusive]

/-- The character at which evaluation takes a text apart, with what stands on its two sides: the
first `>`; in a text without one, the first `<`; and in a text with neither, the first `=`. -/
inductive Picks : (front : Text) → Char → (back : Text) → Prop
  | above {front back : Text} (hf : '>' ∉ front) : Picks front '>' back
  | below {front back : Text} (hgt : '>' ∉ front ++ '<' :: back) (hf : '<' ∉ front) :
    Picks front '<' back
  | equality {front back : Text} (hgt : '>' ∉ front ++ '=' :: back)
    (hlt : '<' ∉ front ++ '=' :: back) (hf : '=' ∉ front) : Picks front '=' back

theorem ofThreshold_above (front back : Text) : ∃ o threshold,
    Comparator.ofText? ('>' :: back) = some (.order o, threshold) ∧
      ofThreshold .above .atLeast front back = order o front.trim threshold := by
  fun_cases ofThreshold .above .atLeast front back with
  | case1 threshold => exact ⟨.atLeast, threshold, rfl, rfl⟩
  | case2 _ h => exact ⟨.above, back, by rw [Comparator.ofText?]; exact h, rfl⟩

theorem ofThreshold_below (front back : Text) : ∃ o threshold,
    Comparator.ofText? ('<' :: back) = some (.order o, threshold) ∧
      ofThreshold .below .atMost front back = order o front.trim threshold := by
  fun_cases ofThreshold .below .atMost front back with
  | case1 threshold => exact ⟨.atMost, threshold, rfl, rfl⟩
  | case2 _ h => exact ⟨.below, back, by rw [Comparator.ofText?]; exact h, rfl⟩

/-- What a text is taken for begins at the character that it is taken apart at. -/
theorem Picks.ofText_cases {front back : Text} {d : Char} (h : Picks front d back) :
    (∃ o threshold, Comparator.ofText? (d :: back) = some (.order o, threshold) ∧
      ofText (front ++ d :: back) = order o front.trim threshold) ∨
    d = '=' ∧ ofText (front ++ d :: back) =
      Comparison.equality front.trim (back.trim.filter (· ≠ '\'')) := by
  cases h with
  | above hf => rw [ofText_above hf]; exact .inl (ofThreshold_above front back)
  | below hgt hf => rw [ofText_below hgt hf]; exact .inl (ofThreshold_below front back)
  | equality hgt hlt hf => exact .inr ⟨rfl, ofText_equality hgt hlt hf⟩

/-- A text that is taken apart nowhere is unreadable. -/
theorem exists_picks_or_unreadable (s : Text) :
    (∃ front d back, s = front ++ d :: back ∧ Picks front d back) ∨ ofText s = unreadable s := by
  by_cases hgt : '>' ∈ s
  · obtain ⟨front, back, rfl, hf⟩ := Text.exists_first_place hgt
    exact .inl ⟨front, '>', back, rfl, .above hf⟩
  by_cases hlt : '<' ∈ s
  · obtain ⟨front, back, rfl, hf⟩ := Text.exists_first_place hlt
    exact .inl ⟨front, '<', back, rfl, .below hgt hf⟩
  by_cases heq : '=' ∈ s
  · obtain ⟨front, back, rfl, hf⟩ := Text.exists_first_place heq
    exact .inl ⟨front, '=', back, rfl, .equality hgt hlt hf⟩
  · rw [ofText, Text.cut?_char_eq_none hgt, Text.cut?_char_eq_none hlt, Text.cut?_char_eq_none heq]
    exact .inr rfl

/-- Whether evaluation takes the text apart at that character, and what stands in front of it is,
stripped, the name. -/
def PicksOn (d : Char) (name s : Text) : Prop :=
  ∃ front back, s = front ++ d :: back ∧ Picks front d back ∧ front.Strips name

theorem Picks.name?_ofText {front back : Text} {d : Char} (h : Picks front d back) :
    (ofText (front ++ d :: back)).name? = some front.trim := by
  rcases h.ofText_cases with ⟨o, threshold, -, he⟩ | ⟨-, he⟩
  · rw [he]
    rfl
  · rw [he]
    rfl

/-- What evaluation looks up is the attribute in front of the character that it picks. -/
theorem exists_picksOn_iff : (∃ d, PicksOn d name s) ↔ (ofText s).name? = some name := by
  apply Iff.intro
  · intro ⟨d, front, back, hs, hp, hname⟩
    rw [hs, hp.name?_ofText, Text.strips_iff.1 hname]
  · intro h
    rcases exists_picks_or_unreadable s with ⟨front, d, back, rfl, hp⟩ | he
    · rw [hp.name?_ofText] at h
      exact ⟨d, front, back, rfl, hp, Text.strips_iff.2 (Option.some.inj h)⟩
    · rw [he] at h
      cases h

theorem threshold?_eq_some_iff {m : Int64} :
    threshold? threshold = some m ↔ Text.Denotes threshold.trim m.toInt := by
  rw [threshold?, Option.bind_eq_some_iff]
  apply Iff.intro
  · intro ⟨n, hn, hm⟩
    rw [signed64?_eq_some.1 hm]
    exact Text.integer?_eq_some_iff.1 hn
  · intro h
    exact ⟨m.toInt, Text.integer?_eq_some_iff.2 h, signed64?_toInt m⟩

theorem answer_check_order : ((order o name threshold).checkM a).answer = true ↔
    ∃ n v, threshold? threshold = some n ∧ a.get? name = some (.int v) ∧
      o.relation v.toInt n.toInt := by
  rw [checkM]
  cases threshold? threshold with
  | none =>
    simp only [Logged.answer_refuse, Bool.false_eq_true, reduceCtorEq, false_and, exists_const]
  | some n =>
    rcases a.get? name with _ | v | t
    · simp
    · simp [Order.holds_iff]
    · simp

theorem exists_toInt_iff : (∃ v : Int64, v.toInt = n) ↔ -2 ^ 63 ≤ n ∧ n ≤ 2 ^ 63 - 1 := by
  constructor
  · rintro ⟨v, rfl⟩
    have hmin := v.le_toInt
    have hmax := v.toInt_lt
    omega
  · rintro ⟨hmin, hmax⟩
    refine ⟨Int64.ofInt n, Int64.toInt_ofInt_of_le hmin ?_⟩
    omega

/-- A comparison with a number that fits no 64-bit integer does not hold. -/
theorem answer_check_order_iff (h : threshold? threshold = signed64? n) :
    ((order o name threshold).checkM a).answer = true ↔
      (-2 ^ 63 ≤ n ∧ n ≤ 2 ^ 63 - 1) ∧
        ∃ v, a.get? name = some (.int v) ∧ o.relation v.toInt n := by
  rw [answer_check_order, h]
  constructor
  · rintro ⟨m, v, hm, hv, ho⟩
    have he := signed64?_eq_some.1 hm
    exact ⟨exists_toInt_iff.1 ⟨m, he⟩, v, hv, he ▸ ho⟩
  · rintro ⟨hn, v, hv, ho⟩
    obtain ⟨m, hm⟩ := exists_toInt_iff.2 hn
    exact ⟨m, v, signed64?_eq_some.2 hm, hv, hm.symm ▸ ho⟩

theorem answer_check_equality : ((equality name expected).checkM a).answer = true ↔
    a.get? name = some (.text expected) := by
  rw [checkM]
  rcases a.get? name with _ | v | t
  · simp
  · simp
  · simp

end Comparison

end Eligibility

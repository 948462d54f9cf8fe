import Eligibility.Proofs.Condition.Comparison
import Eligibility.Proofs.Condition.Grammar

namespace Eligibility.Condition

variable {t name gap gap' digits body : Text} {o : Order} {c : Condition} {a : Attributes} {d : Char}

/-- What a condition says of the attributes, by its parts. A literal that holds `>` or `<` says
nothing that could be true. -/
def Holds (a : Attributes) : Condition → Prop
  | number name _ (.order o) _ digits => ∃ v, a.get? name = some (.int v) ∧
      Text.decimal digits ≤ 2 ^ 63 - 1 ∧ o.relation v.toInt (Text.decimal digits)
  | number name _ .equality _ digits => a.get? name = some (.text digits)
  | literal name _ _ body => '>' ∉ body ∧ '<' ∉ body ∧
      a.get? name = some (.text (body.filter (· ≠ '\'')))

theorem not_mem_front (hn : isName name = true) (hg : gap.all isSpace = true)
    (hl : isLetter d = false) (hs : isSpace d = false) : d ∉ name ++ gap := by
  intro h
  rcases List.mem_append.1 h with h | h
  · exact Text.not_mem_of_all (isName_iff.1 hn).2 hl h
  · exact Text.not_mem_of_all hg hs h

theorem not_mem_digits (hd : digits.isNumeral = true) (hn : d.isDigit = false) : d ∉ digits :=
  Text.not_mem_of_all (Text.isNumeral_iff.1 hd).2 hn

theorem not_mem_gap_append (hg : gap.all isSpace = true) (hs : isSpace d = false) (ht : d ∉ t) :
    d ∉ gap ++ t := by
  intro h
  rcases List.mem_append.1 h with h | h
  · exact Text.not_mem_of_all hg hs h
  · exact ht h

theorem all_isBlank (hg : gap.all isSpace = true) : gap.all Text.isBlank = true :=
  List.all_eq_true.2 fun c hc => isBlank_of_isSpace (List.all_eq_true.1 hg c hc)

theorem trim_front (hn : isName name = true) (hg : gap.all isSpace = true) :
    Text.trim (name ++ gap) = name := by
  have hname : name.Trimmed :=
    Text.Trimmed.of_all (fun _ => isBlank_of_isLetter) (isName_iff.1 hn).2
  exact hname.trim_pad (b := []) rfl (all_isBlank hg)

theorem trim_back (hg : gap'.all isSpace = true) (ht : t.Trimmed) :
    Text.trim (gap' ++ t) = t := by
  have h := ht.trim_pad (a := []) (all_isBlank hg) rfl
  rwa [List.append_nil] at h

theorem trimmed_digits (hd : digits.isNumeral = true) : digits.Trimmed :=
  Text.Trimmed.of_all (fun _ => isBlank_of_isDigit) (Text.isNumeral_iff.1 hd).2

theorem text_number_eq (name gap : Text) (comparator : Comparator) (gap' digits : Text) :
    (number name gap comparator gap' digits).text =
      (name ++ gap) ++ (comparator.symbol ++ (gap' ++ digits)) := by
  rw [text_number, List.append_assoc]

theorem ofText_order (h : (number name gap (.order o) gap' digits).WellFormed) :
    Comparison.ofText (number name gap (.order o) gap' digits).text =
      .order o name (gap' ++ digits) := by
  obtain ⟨hn, hg, hg', hd⟩ := h
  have hhead : ∀ e, (gap' ++ digits).head? = some e → e ≠ '=' := by
    rintro e he rfl
    exact not_mem_gap_append hg' rfl (not_mem_digits hd rfl) (List.mem_of_head? he)
  rw [text_number_eq, Comparison.ofText_symbol (not_mem_front hn hg rfl rfl)
    (not_mem_front hn hg rfl rfl) (not_mem_gap_append hg' rfl (not_mem_digits hd rfl)) hhead,
    trim_front hn hg]

/-- Any condition with `=` whose other parts hold neither `>` nor `<` is read as an equality. -/
theorem ofText_equality {right : Text} (hn : isName name = true) (hg : gap.all isSpace = true)
    (hg' : gap'.all isSpace = true) (ht : right.Trimmed) (hgt : '>' ∉ right) (hlt : '<' ∉ right) :
    Comparison.ofText (name ++ (gap ++ (Comparator.equality.symbol ++ (gap' ++ right)))) =
      .equality name (right.filter (· ≠ '\'')) := by
  have hall {d : Char} (hl : isLetter d = false) (hs : isSpace d = false)
      (hd : d ∉ right) (he : d ∉ ['=']) : d ∉ name ++ gap ++ ('=' :: (gap' ++ right)) :=
    Comparison.not_mem_between (s := ['=']) (not_mem_front hn hg hl hs) he
      (not_mem_gap_append hg' hs hd)
  rw [← List.append_assoc]
  change Comparison.ofText (_ ++ '=' :: (gap' ++ right)) = _
  rw [Comparison.ofText_equality (hall rfl rfl hgt (by decide)) (hall rfl rfl hlt (by decide))
    (not_mem_front hn hg rfl rfl), trim_front hn hg, trim_back hg' ht]

theorem threshold?_digits (hg : gap'.all isSpace = true) (hd : digits.isNumeral = true) :
    Comparison.threshold? (gap' ++ digits) = signed64? (Text.decimal digits) := by
  rw [Comparison.threshold?, trim_back hg (trimmed_digits hd), Text.integer?_of_isNumeral hd]
  rfl

theorem evaluate_order (h : (number name gap (.order o) gap' digits).WellFormed) :
    evaluateCondition (number name gap (.order o) gap' digits).text a = true ↔
      (number name gap (.order o) gap' digits).Holds a := by
  rw [evaluateCondition, evaluateConditionM, ofText_order h,
    Comparison.answer_check_order_iff (threshold?_digits h.2.2.1 h.2.2.2)]
  constructor
  · rintro ⟨⟨-, hmax⟩, v, hv, ho⟩
    refine ⟨v, hv, ?_, ho⟩
    omega
  · rintro ⟨v, hv, hmax, ho⟩
    refine ⟨⟨?_, ?_⟩, v, hv, ho⟩
    · omega
    · omega

theorem trimmed_quoted (body : Text) : Text.Trimmed ('\'' :: body ++ ['\'']) := by
  refine ⟨fun c hc => ?_, fun c hc => ?_⟩
  · cases hc
    rfl
  · rw [List.getLast?_concat] at hc
    cases hc
    rfl

theorem not_mem_quoted (hd : d ∉ body) (hq : d ≠ '\'') : d ∉ '\'' :: body ++ ['\''] := by
  rw [List.mem_append, List.mem_cons, List.mem_singleton]
  rintro ((h | h) | h)
  · exact hq h
  · exact hd h
  · exact hq h

theorem filter_digits (hd : digits.isNumeral = true) :
    digits.filter (· ≠ '\'') = digits := by
  apply List.filter_eq_self.2
  intro d hmem
  rw [decide_eq_true_eq]
  rintro rfl
  exact not_mem_digits hd rfl hmem

theorem filter_quoted (body : Text) :
    ('\'' :: body ++ ['\'']).filter (· ≠ '\'') = body.filter (· ≠ '\'') := by
  rw [List.filter_append, List.filter_cons_of_neg (by decide), List.filter_cons_of_neg (by decide),
    List.filter_nil, List.append_nil]

theorem evaluate_equality (h : (number name gap .equality gap' digits).WellFormed) :
    evaluateCondition (number name gap .equality gap' digits).text a = true ↔
      (number name gap .equality gap' digits).Holds a := by
  obtain ⟨hn, hg, hg', hd⟩ := h
  rw [evaluateCondition, evaluateConditionM, text_number,
    ofText_equality hn hg hg' (trimmed_digits hd) (not_mem_digits hd rfl) (not_mem_digits hd rfl),
    filter_digits hd, Comparison.answer_check_equality]
  rfl

theorem evaluate_literal (h : (literal name gap gap' body).WellFormed) (hgt : '>' ∉ body)
    (hlt : '<' ∉ body) : evaluateCondition (literal name gap gap' body).text a = true ↔
      (literal name gap gap' body).Holds a := by
  obtain ⟨hn, hg, hg', _⟩ := h
  rw [evaluateCondition, evaluateConditionM, text_literal,
    ofText_equality hn hg hg' (trimmed_quoted body) (not_mem_quoted hgt (by decide))
      (not_mem_quoted hlt (by decide)), filter_quoted, Comparison.answer_check_equality]
  exact ⟨fun h => ⟨hgt, hlt, h⟩, fun h => h.2.2⟩

theorem threshold?_quote (t : Text) : Comparison.threshold? (t ++ ['\'']) = none := by
  have hq : '\'' ∈ Text.trim (t ++ ['\'']) :=
    Text.mem_trim (List.mem_append_right t List.mem_cons_self) rfl
  rw [Comparison.threshold?, Text.integer?_eq_none hq rfl (by decide) (by decide)]
  rfl

/-- A threshold that ends in a quote refuses the comparison before any attribute is looked up. -/
theorem refuse_quote (strict inclusive : Order) (name t : Text) : ∃ threshold, ∀ a,
    (Comparison.ofThreshold strict inclusive name (t ++ ['\''])).checkM a =
      .refuse (.thresholdNotInteger name.trim threshold) := by
  have hrefuse (o : Order) (n t : Text) (a : Attributes) :
      (Comparison.order o n (t ++ ['\''])).checkM a =
        .refuse (.thresholdNotInteger n (t ++ ['\''])) := by
    rw [Comparison.checkM, threshold?_quote]
  by_cases h : t.head? = some '='
  · obtain ⟨t, rfl⟩ := List.head?_eq_some_iff.1 h
    exact ⟨t ++ ['\''], fun a => hrefuse inclusive name.trim t a⟩
  · refine ⟨t ++ ['\''], fun a => ?_⟩
    rw [Comparison.ofThreshold_strict, hrefuse]
    rintro d hd rfl
    cases t with
    | nil => cases hd
    | cons c t => exact h hd

/-- A text that ends in a quote and holds `>` or `<` before it is compared with no number. -/
theorem refuse_text_quote (h : '>' ∈ t ∨ '<' ∈ t) : ∃ name threshold, ∀ a,
    evaluateConditionM (t ++ ['\'']) a = .refuse (.thresholdNotInteger name threshold) := by
  by_cases hgt : '>' ∈ t
  · obtain ⟨x, y, rfl, hx⟩ := Text.exists_first_place hgt
    obtain ⟨threshold, hr⟩ := refuse_quote .above .atLeast x y
    refine ⟨x.trim, threshold, fun a => ?_⟩
    rw [evaluateConditionM, List.append_assoc, List.cons_append, Comparison.ofText_above hx, hr]
  · obtain ⟨x, y, rfl, hx⟩ := Text.exists_first_place (h.resolve_left hgt)
    obtain ⟨threshold, hr⟩ := refuse_quote .below .atMost x y
    have hgt' : '>' ∉ x ++ '<' :: (y ++ ['\'']) := by
      rw [← List.cons_append, ← List.append_assoc, List.mem_append, not_or]
      exact ⟨hgt, by decide⟩
    refine ⟨x.trim, threshold, fun a => ?_⟩
    rw [evaluateConditionM, List.append_assoc, List.cons_append, Comparison.ofText_below hgt' hx, hr]

theorem refuse_literal (name gap gap' : Text) (h : '>' ∈ body ∨ '<' ∈ body) : ∃ n threshold, ∀ a,
    evaluateConditionM (literal name gap gap' body).text a =
      .refuse (.thresholdNotInteger n threshold) := by
  have hmem {d : Char} (hd : d ∈ body) : d ∈ name ++ gap ++ '=' :: gap' ++ '\'' :: body :=
    List.mem_append_right _ (List.mem_cons_of_mem _ hd)
  have he : (literal name gap gap' body).text =
      (name ++ gap ++ '=' :: gap' ++ '\'' :: body) ++ ['\''] := rfl
  rw [he]
  exact refuse_text_quote (h.imp hmem hmem)

theorem evaluate_iff_holds (h : c.WellFormed) : evaluateCondition c.text a = true ↔ c.Holds a := by
  cases c with
  | number name gap comparator gap' digits =>
    cases comparator with
    | order o => exact evaluate_order h
    | equality => exact evaluate_equality h
  | literal name gap gap' body =>
    by_cases hm : '>' ∈ body ∨ '<' ∈ body
    · obtain ⟨n, threshold, hr⟩ := refuse_literal name gap gap' hm
      rw [evaluateCondition, hr, Logged.answer_refuse]
      refine ⟨nofun, fun hh => ?_⟩
      rcases hm with hm | hm
      · exact absurd hm hh.1
      · exact absurd hm hh.2.1
    · rw [not_or] at hm
      exact evaluate_literal h hm.1 hm.2

/-- A condition's text is taken apart in some way, and in whatever way it is, evaluating the text
finds what its parts say. -/
theorem evaluateCondition_iff_holds (h : isCondition t = true) :
    (∃ c : Condition, c.WellFormed ∧ c.text = t) ∧
    ∀ c : Condition, c.WellFormed → c.text = t →
      (∀ a, evaluateCondition t a = true ↔ c.Holds a) ∧
      ∀ name gap gap' body, c = literal name gap gap' body → '>' ∈ body ∨ '<' ∈ body →
        ∃ n threshold, ∀ a,
          evaluateConditionM t a = .refuse (.thresholdNotInteger n threshold) := by
  refine ⟨isCondition_iff.1 h, ?_⟩
  rintro c hc rfl
  refine ⟨fun a => evaluate_iff_holds hc, ?_⟩
  rintro name gap gap' body rfl hm
  exact refuse_literal name gap gap' hm

theorem evaluateCondition_padded_number :
    isCondition ['n', ' ', '>', '=', '\t', '0', '0', '7'] = true ∧
    evaluateCondition ['n', ' ', '>', '=', '\t', '0', '0', '7']
      (Attributes.empty.insert ['n'] (.int 7)) = true := by
  have h : isCondition ['n', ' ', '>', '=', '\t', '0', '0', '7'] = true := by decide
  have hc := (evaluateCondition_iff_holds h).2
    (.number ['n'] [' '] (.order .atLeast) ['\t'] ['0', '0', '7']) (by decide) rfl
  exact ⟨h, (hc.1 _).2 ⟨7, rfl, by decide, Order.holds_iff.1 (by decide)⟩⟩

end Eligibility.Condition

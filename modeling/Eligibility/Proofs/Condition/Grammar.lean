import Eligibility.Condition
import Eligibility.Proofs.Text.Decimal
import Eligibility.Proofs.Text.Trim

namespace Eligibility

theorem Comparator.ofText?_append (c : Comparator) {rest : Text}
    (h : ∀ d, rest.head? = some d → d ≠ '=') : ofText? (c.symbol ++ rest) = some (c, rest) := by
  cases c with
  | equality => rfl
  | order o =>
    cases o with
    | atLeast => rfl
    | atMost => rfl
    | above =>
      cases rest with
      | nil => rfl
      | cons d rest => simp [symbol, ofText?, h d rfl]
    | below =>
      cases rest with
      | nil => rfl
      | cons d rest => simp [symbol, ofText?, h d rfl]

namespace Condition

variable {t name gap gap' digits body rest : Text} {c : Condition} {comparator : Comparator}

theorem isLetter_iff {d : Char} : isLetter d = true ↔
    65 ≤ d.toNat ∧ d.toNat ≤ 90 ∨ 97 ≤ d.toNat ∧ d.toNat ≤ 122 := by
  have h : isLetter d = (decide (65 ≤ d.val ∧ d.val ≤ 90) ||
      (decide (97 ≤ d.val) && decide (d.val ≤ 122))) := rfl
  simp only [h, Bool.or_eq_true, Bool.and_eq_true, decide_eq_true_eq, UInt32.le_iff_toNat_le]
  rfl

theorem isSpace_iff {d : Char} : isSpace d = true ↔
    d.toNat = 32 ∨ 9 ≤ d.toNat ∧ d.toNat ≤ 13 := by
  simp only [isSpace, Bool.or_eq_true, Bool.and_eq_true, decide_eq_true_eq, Char.le_def,
    UInt32.le_iff_toNat_le, ← Char.toNat_inj]
  rfl

theorem isDigit_iff {d : Char} : d.isDigit = true ↔ 48 ≤ d.toNat ∧ d.toNat ≤ 57 := by
  simp only [Char.isDigit, Bool.and_eq_true, decide_eq_true_eq, UInt32.le_iff_toNat_le, ge_iff_le]
  rfl

theorem isBlank_of_isSpace {d : Char} (h : isSpace d = true) : Text.isBlank d = true := by
  rw [isSpace_iff] at h
  rw [Text.isBlank_iff]
  omega

theorem isBlank_of_isLetter {d : Char} (h : isLetter d = true) : Text.isBlank d = false := by
  rw [isLetter_iff] at h
  rw [← Bool.not_eq_true, Text.isBlank_iff]
  omega

theorem isBlank_of_isDigit {d : Char} (h : d.isDigit = true) : Text.isBlank d = false := by
  rw [isDigit_iff] at h
  rw [← Bool.not_eq_true, Text.isBlank_iff]
  omega

theorem isSpace_of_not_isBlank {d : Char} (h : Text.isBlank d = false) : isSpace d = false := by
  rw [← Bool.not_eq_true] at h ⊢
  exact mt isBlank_of_isSpace h

theorem isLetter_of_isSpace {d : Char} (h : isSpace d = true) : isLetter d = false := by
  rw [← Bool.not_eq_true]
  intro hl
  have hb := isBlank_of_isLetter hl
  rw [isBlank_of_isSpace h] at hb
  cases hb

theorem isName_iff : isName t = true ↔ t ≠ [] ∧ t.all isLetter = true := by
  rw [isName, Bool.and_eq_true, Bool.not_eq_true', List.isEmpty_eq_false_iff]

theorem symbol_head? (comparator : Comparator) (rest : Text) : ∃ d,
    (comparator.symbol ++ rest).head? = some d ∧ isLetter d = false ∧ isSpace d = false := by
  cases comparator with
  | equality => exact ⟨'=', rfl, rfl, rfl⟩
  | order o =>
    cases o with
    | above | atLeast => exact ⟨'>', rfl, rfl, rfl⟩
    | below | atMost => exact ⟨'<', rfl, rfl, rfl⟩

theorem head?_gap {p : Char → Bool} (hg : gap.all isSpace = true)
    (hs : ∀ d, isSpace d = true → p d = false) (hr : ∀ d, rest.head? = some d → p d = false) :
    ∀ d, (gap ++ rest).head? = some d → p d = false := by
  cases gap with
  | nil => exact hr
  | cons c gap =>
    intro d hd
    cases hd
    rw [List.all_cons, Bool.and_eq_true] at hg
    exact hs c hg.1

/-- Reading a condition finds its front part in any text that begins with one. -/
theorem ofText?_append (hn : name.all isLetter = true) (hg : gap.all isSpace = true)
    (hg' : gap'.all isSpace = true)
    (hr : ∀ d, rest.head? = some d → isSpace d = false ∧ d ≠ '=') :
    ofText? (name ++ (gap ++ (comparator.symbol ++ (gap' ++ rest)))) =
      if name.isEmpty then none
      else if rest.isNumeral then some (number name gap comparator gap' rest)
      else if comparator = .equality then (quotedBody? rest).map (literal name gap gap')
      else none := by
  obtain ⟨d, hd, hl, hs⟩ := symbol_head? comparator (gap' ++ rest)
  have hsym {p : Char → Bool} (hp : p d = false) :
      ∀ e, (comparator.symbol ++ (gap' ++ rest)).head? = some e → p e = false := by
    intro e he
    rw [hd] at he
    cases he
    exact hp
  have hname := head?_gap hg (fun _ => isLetter_of_isSpace) (hsym hl)
  have heq : ∀ e, (gap' ++ rest).head? = some e → e ≠ '=' := by
    have := head?_gap (p := (· == '=')) hg'
      (fun e he => by rw [beq_eq_false_iff_ne]; rintro rfl; cases he)
      (fun e he => by rw [beq_eq_false_iff_ne]; exact (hr e he).2)
    simpa using this
  simp only [ofText?, Text.takeWhile_stop hn hname, Text.dropWhile_stop hn hname,
    Text.takeWhile_stop hg (hsym hs), Text.dropWhile_stop hg (hsym hs),
    Comparator.ofText?_append comparator heq,
    Text.takeWhile_stop hg' (fun e he => (hr e he).1),
    Text.dropWhile_stop hg' (fun e he => (hr e he).1)]

theorem text_number (name gap : Text) (comparator : Comparator) (gap' digits : Text) :
    (number name gap comparator gap' digits).text =
      name ++ (gap ++ (comparator.symbol ++ (gap' ++ digits))) := by
  simp only [text, List.append_assoc]

theorem text_literal (name gap gap' body : Text) : (literal name gap gap' body).text =
    name ++ (gap ++ (Comparator.equality.symbol ++ (gap' ++ ('\'' :: body ++ ['\''])))) := by
  simp only [text, Comparator.symbol, List.append_assoc, List.cons_append, List.nil_append]

theorem quotedBody?_eq_some_iff :
    quotedBody? t = some body ↔ t = '\'' :: body ++ ['\''] ∧ isBody body = true := by
  constructor
  · intro h
    unfold quotedBody? at h
    split at h
    case h_1 t =>
      split at h
      case isTrue hb =>
        cases h
        obtain ⟨ys, rfl⟩ := List.getLast?_eq_some_iff.1 hb.1
        rw [List.dropLast_concat] at hb ⊢
        exact ⟨rfl, hb.2⟩
      case isFalse => cases h
    case h_2 => cases h
  · rintro ⟨rfl, hb⟩
    simp only [quotedBody?, List.cons_append, List.getLast?_concat, List.dropLast_concat, hb,
      and_self, ↓reduceIte]

theorem text_head? (h : c.WellFormed) : ∃ d, c.text.head? = some d ∧ isLetter d = true := by
  have hname : ∀ n rest : Text, isName n = true →
      ∃ d, (n ++ rest).head? = some d ∧ isLetter d = true := by
    intro n rest hn
    obtain ⟨hne, hall⟩ := isName_iff.1 hn
    obtain ⟨d, hd, hl⟩ := Text.exists_head?_of_all hne hall
    refine ⟨d, ?_, hl⟩
    rw [List.head?_append, hd, Option.some_or]
  cases c with
  | number name gap comparator gap' digits =>
    rw [text_number]
    exact hname _ _ h.1
  | literal name gap gap' body =>
    rw [text_literal]
    exact hname _ _ h.1

theorem text_getLast? (h : c.WellFormed) :
    ∃ d, c.text.getLast? = some d ∧ (d.isDigit = true ∨ d = '\'') := by
  cases c with
  | number name gap comparator gap' digits =>
    obtain ⟨hne, hall⟩ := Text.isNumeral_iff.1 h.2.2.2
    obtain ⟨d, hd, hdig⟩ := Text.exists_getLast?_of_all hne hall
    refine ⟨d, ?_, .inl hdig⟩
    rw [text, List.getLast?_append, hd, Option.some_or]
  | literal name gap gap' body =>
    exact ⟨'\'', List.getLast?_concat, .inr rfl⟩

theorem trimmed_text (h : c.WellFormed) : c.text.Trimmed := by
  constructor
  · obtain ⟨d, hd, hl⟩ := text_head? h
    intro e he
    cases hd.symm.trans he
    exact isBlank_of_isLetter hl
  · obtain ⟨d, hd, hl⟩ := text_getLast? h
    intro e he
    cases hd.symm.trans he
    rcases hl with hl | rfl
    · exact isBlank_of_isDigit hl
    · rfl

theorem ofText?_text (h : c.WellFormed) : ofText? c.text = some c := by
  cases c with
  | number name gap comparator gap' digits =>
    obtain ⟨hn, hg, hg', hd⟩ := h
    obtain ⟨hne, hall⟩ := isName_iff.1 hn
    obtain ⟨hde, hdall⟩ := Text.isNumeral_iff.1 hd
    have hr : ∀ d, digits.head? = some d → isSpace d = false ∧ d ≠ '=' := by
      obtain ⟨e, he, hdig⟩ := Text.exists_head?_of_all hde hdall
      intro d hd
      cases he.symm.trans hd
      refine ⟨isSpace_of_not_isBlank (isBlank_of_isDigit hdig), ?_⟩
      rintro rfl
      cases hdig
    rw [text_number, ofText?_append hall hg hg' hr, List.isEmpty_eq_false_iff.2 hne, hd]
    rfl
  | literal name gap gap' body =>
    obtain ⟨hn, hg, hg', hb⟩ := h
    obtain ⟨hne, hall⟩ := isName_iff.1 hn
    have hr : ∀ d, ('\'' :: body ++ ['\'']).head? = some d → isSpace d = false ∧ d ≠ '=' := by
      intro d hd
      cases hd
      exact ⟨rfl, by decide⟩
    have hq := quotedBody?_eq_some_iff.2 ⟨rfl, hb⟩
    rw [text_literal, ofText?_append hall hg hg' hr, List.isEmpty_eq_false_iff.2 hne, hq]
    rfl

theorem wellFormed_of_ofText? (h : ofText? t = some c) : c.WellFormed ∧ c.text = t := by
  have hname := List.takeWhile_append_dropWhile (p := isLetter) (l := t)
  have hgap := List.takeWhile_append_dropWhile (p := isSpace) (l := t.dropWhile isLetter)
  simp only [ofText?] at h
  split at h
  case h_1 => cases h
  case h_2 comparator after hc =>
    have hgap' := List.takeWhile_append_dropWhile (p := isSpace) (l := after)
    have ht : t.takeWhile isLetter ++ ((t.dropWhile isLetter).takeWhile isSpace ++
        (comparator.symbol ++ (after.takeWhile isSpace ++ after.dropWhile isSpace))) = t := by
      rw [hgap', ← Comparator.append_of_ofText? hc, hgap, hname]
    split at h
    case isTrue => cases h
    case isFalse hn =>
      have hn' : isName (t.takeWhile isLetter) = true :=
        isName_iff.2 ⟨mt List.isEmpty_iff.2 hn, List.all_takeWhile⟩
      split at h
      case isTrue hd =>
        cases h
        exact ⟨⟨hn', List.all_takeWhile, List.all_takeWhile, hd⟩, (text_number ..).trans ht⟩
      case isFalse =>
        split at h
        case isTrue he =>
          subst he
          obtain ⟨body, hb, hl⟩ := Option.map_eq_some_iff.1 h
          cases hl
          obtain ⟨hr, hb⟩ := quotedBody?_eq_some_iff.1 hb
          rw [hr] at ht
          exact ⟨⟨hn', List.all_takeWhile, List.all_takeWhile, hb⟩, (text_literal ..).trans ht⟩
        case isFalse => cases h

theorem ofText?_eq_some_iff : ofText? t = some c ↔ c.WellFormed ∧ c.text = t :=
  ⟨wellFormed_of_ofText?, fun ⟨hc, ht⟩ => ht ▸ ofText?_text hc⟩

end Condition

theorem isCondition_iff {t : Text} :
    isCondition t = true ↔ ∃ c : Condition, c.WellFormed ∧ c.text = t := by
  rw [isCondition, Option.isSome_iff_exists]
  exact exists_congr fun c => Condition.ofText?_eq_some_iff

end Eligibility

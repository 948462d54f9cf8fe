import Eligibility.Json.Quoted

namespace Eligibility.Json.Quoted

variable {before : List Element} {c : Char} {t rest : Text}

/-- What a character that is written is read as: control characters without a short escape are
read as UTF-16 units. -/
def element (c : Char) : Element :=
  if c < ' ' ∧ c ∉ ['\x08', '\x0c', '\n', '\r', '\t'] then .codeUnit c.toNat else .char c

theorem hex4?_hexDigit :
    ∀ n < 32, hex4? '0' '0' (hexDigit (n / 16)) (hexDigit (n % 16)) = some n := by
  decide

theorem toNat_lt_of_lt_space (h : c < ' ') : c.toNat < 32 := h

theorem readFrom?_escape (before : List Element) (c : Char) (t : Text) :
    readFrom? before (escape c ++ t) = readFrom? (element c :: before) t := by
  fun_cases escape c with
  | case1 | case2 | case3 | case4 | case5 | case6 | case7 => rfl
  | case8 c hquote hslash hb hf hn hr ht hc =>
    have he : element c = .codeUnit c.toNat := by
      apply if_pos
      refine ⟨hc, ?_⟩
      simp only [List.mem_cons, List.not_mem_nil, or_false, not_or]
      exact ⟨hb, hf, hn, hr, ht⟩
    rw [he, List.cons_append, List.cons_append, List.cons_append, List.cons_append,
      List.cons_append, List.cons_append, List.nil_append, readFrom?,
      hex4?_hexDigit _ (toNat_lt_of_lt_space hc)]
  | case9 c hquote hslash hb hf hn hr ht hc =>
    have he : element c = .char c := if_neg fun h => hc h.1
    rw [he, List.cons_append, List.nil_append, readFrom?, if_neg hc]
    · exact hquote
    · intro _ _ _ _ _ h
      exact absurd h hslash
    · intro _ _ h
      exact absurd h hslash
    · intro h
      exact absurd h hslash

theorem not_surrogate {n : Nat} (h : n < 32) : isHigh n = false ∧ isLow n = false := by
  rw [isHigh, isLow, Bool.and_eq_false_iff, Bool.and_eq_false_iff]
  exact ⟨.inl (decide_eq_false (by omega)), .inl (decide_eq_false (by omega))⟩

/-- A unit that is no surrogate is a character of its own, whatever comes next. -/
theorem charsFrom?_codeUnit {n : Nat} (h : n < 32) (before : Text) (es : List Element) :
    charsFrom? before (.codeUnit n :: es) = charsFrom? (Char.ofNat n :: before) es := by
  obtain ⟨hhigh, hlow⟩ := not_surrogate h
  cases es with
  | nil => simp [charsFrom?, hhigh, hlow]
  | cons e es =>
    cases e with
    | char d => simp [charsFrom?, hhigh, hlow]
    | codeUnit m => simp [charsFrom?, hhigh, hlow]

theorem charsFrom?_element (before : Text) (c : Char) (es : List Element) :
    charsFrom? before (element c :: es) = charsFrom? (c :: before) es := by
  rw [element]
  split
  case isTrue h => rw [charsFrom?_codeUnit (toNat_lt_of_lt_space h.1), Char.ofNat_toNat]
  case isFalse => rfl

theorem readFrom?_write (before : List Element) (t rest : Text) :
    readFrom? before (t.foldr (fun c t' => escape c ++ t') ('"' :: rest)) =
      some (before.reverse ++ t.map element, rest) := by
  induction t generalizing before with
  | nil => rw [List.map_nil, List.append_nil]; rfl
  | cons c t ih =>
    rw [List.foldr_cons, readFrom?_escape, ih, List.reverse_cons, List.append_assoc]
    rfl

theorem charsFrom?_map_element (before t : Text) :
    charsFrom? before (t.map element) = some (before.reverse ++ t) := by
  induction t generalizing before with
  | nil => rw [List.append_nil]; rfl
  | cons c t ih =>
    rw [List.map_cons, charsFrom?_element, ih, List.reverse_cons, List.append_assoc]
    rfl

/-- Any text can be written between quotes and read back. -/
theorem read?_write (t rest : Text) :
    read? (t.foldr (fun c t' => escape c ++ t') ('"' :: rest)) = some (some t, rest) := by
  rw [read?, readFrom?_write, Option.map_some, List.reverse_nil, List.nil_append]
  dsimp only
  rw [charsFrom?_map_element]
  rfl

end Eligibility.Json.Quoted

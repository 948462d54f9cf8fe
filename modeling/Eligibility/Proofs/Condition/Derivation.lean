import Eligibility.Proofs.Condition.Grammar

namespace Eligibility.Condition

variable {t : Text} {c : Condition} {d : Char}

/-- The letters of names. -/
def Letter (d : Char) : Prop := 'A' ≤ d ∧ d ≤ 'Z' ∨ 'a' ≤ d ∧ d ≤ 'z'

def Digit (d : Char) : Prop := '0' ≤ d ∧ d ≤ '9'

/-- The characters of gaps. -/
def spaces : List Char := [' ', '\t', '\n', '\u000b', '\u000c', '\r']

/-- The characters that no literal holds. -/
def lineBreaks : List Char := ['\n', '\r', '\u0085', '\u2028', '\u2029']

/-- The grammar of conditions: the texts that its two productions derive, each with the parts that
it is derived from. -/
inductive Derives : Text → Condition → Prop
  | number {name gap gap' digits : Text} (comparator : Comparator)
      (hn : name ≠ [] ∧ ∀ d ∈ name, Letter d) (hg : ∀ d ∈ gap, d ∈ spaces)
      (hg' : ∀ d ∈ gap', d ∈ spaces) (hd : digits ≠ [] ∧ ∀ d ∈ digits, Digit d) :
      Derives (name ++ gap ++ comparator.symbol ++ gap' ++ digits)
        (.number name gap comparator gap' digits)
  | literal {name gap gap' body : Text}
      (hn : name ≠ [] ∧ ∀ d ∈ name, Letter d) (hg : ∀ d ∈ gap, d ∈ spaces)
      (hg' : ∀ d ∈ gap', d ∈ spaces) (hb : body ≠ [] ∧ ∀ d ∈ body, d ∉ lineBreaks) :
      Derives (name ++ gap ++ ['='] ++ gap' ++ ['\''] ++ body ++ ['\''])
        (.literal name gap gap' body)

theorem letter_iff : Letter d ↔ isLetter d = true := by
  rw [isLetter_iff]
  simp only [Letter, Char.le_def, UInt32.le_iff_toNat_le]
  rfl

theorem digit_iff : Digit d ↔ d.isDigit = true := by
  rw [isDigit_iff]
  simp only [Digit, Char.le_def, UInt32.le_iff_toNat_le]
  rfl

theorem mem_spaces_iff : d ∈ spaces ↔ isSpace d = true := by
  rw [isSpace_iff]
  simp only [spaces, List.mem_cons, List.not_mem_nil, or_false, ← Char.toNat_inj,
    Char.reduceToNat]
  omega

theorem mem_lineBreaks_iff : d ∈ lineBreaks ↔ isLineBreak d = true := by
  simp only [lineBreaks, isLineBreak, List.mem_cons, List.not_mem_nil, or_false, Bool.or_eq_true,
    decide_eq_true_eq, or_assoc]

theorem letters_iff : (t ≠ [] ∧ ∀ d ∈ t, Letter d) ↔ isName t = true := by
  rw [isName_iff, List.all_eq_true]
  simp only [letter_iff]

theorem gap_iff : (∀ d ∈ t, d ∈ spaces) ↔ t.all isSpace = true := by
  rw [List.all_eq_true]
  simp only [mem_spaces_iff]

theorem digits_iff : (t ≠ [] ∧ ∀ d ∈ t, Digit d) ↔ t.isNumeral = true := by
  rw [Text.isNumeral_iff, List.all_eq_true]
  simp only [digit_iff]

theorem body_iff : (t ≠ [] ∧ ∀ d ∈ t, d ∉ lineBreaks) ↔ isBody t = true := by
  rw [isBody, Bool.and_eq_true, Bool.not_eq_true', List.isEmpty_eq_false_iff, List.all_eq_true]
  simp only [mem_lineBreaks_iff, Bool.not_eq_true, Bool.not_eq_true']

theorem Derives.wellFormed (h : Derives t c) : c.WellFormed ∧ c.text = t := by
  cases h with
  | number comparator hn hg hg' hd =>
    exact ⟨⟨letters_iff.1 hn, gap_iff.1 hg, gap_iff.1 hg', digits_iff.1 hd⟩, rfl⟩
  | literal hn hg hg' hb =>
    apply And.intro
    · exact ⟨letters_iff.1 hn, gap_iff.1 hg, gap_iff.1 hg', body_iff.1 hb⟩
    · simp only [text, List.append_assoc, List.cons_append, List.nil_append]

theorem derives_text (h : c.WellFormed) : Derives c.text c := by
  cases c with
  | number name gap comparator gap' digits =>
    obtain ⟨hn, hg, hg', hd⟩ := h
    exact .number comparator (letters_iff.2 hn) (gap_iff.2 hg) (gap_iff.2 hg') (digits_iff.2 hd)
  | literal name gap gap' body =>
    obtain ⟨hn, hg, hg', hb⟩ := h
    have hd : Derives _ (literal name gap gap' body) :=
      .literal (letters_iff.2 hn) (gap_iff.2 hg) (gap_iff.2 hg') (body_iff.2 hb)
    rw [← hd.wellFormed.2] at hd
    exact hd

/-- Reading a text finds what the grammar derives it from. -/
theorem derives_iff : Derives t c ↔ ofText? t = some c := by
  rw [ofText?_eq_some_iff]
  apply Iff.intro
  · exact Derives.wellFormed
  · intro h
    rw [← h.2]
    exact derives_text h.1

/-- The conditions are the texts of the grammar, and no text can be derived in two ways. -/
theorem isCondition_iff_derives (t : Text) :
    (isCondition t = true ↔ ∃ c, Derives t c) ∧ ∀ c c', Derives t c → Derives t c' → c = c' := by
  apply And.intro
  · rw [isCondition, Option.isSome_iff_exists]
    simp only [derives_iff]
  · intro c c' h h'
    rw [derives_iff] at h h'
    exact Option.some.inj (h.symm.trans h')

/-- A quote in a literal does not end it. -/
theorem derives_quote_in_literal :
    Derives "q\t= 'it's'".toList (.literal ['q'] ['\t'] [' '] "it's".toList) ∧
    isCondition "q\t= 'it's'".toList = true ∧
    ∀ c, Derives "q\t= 'it's'".toList c → c = .literal ['q'] ['\t'] [' '] "it's".toList := by
  have hd : Derives "q\t= 'it's'".toList (.literal ['q'] ['\t'] [' '] "it's".toList) :=
    derives_iff.2 (by decide)
  obtain ⟨haccepts, hunique⟩ := isCondition_iff_derives "q\t= 'it's'".toList
  exact ⟨hd, haccepts.2 ⟨_, hd⟩, fun c hc => hunique c _ hc hd⟩

end Eligibility.Condition

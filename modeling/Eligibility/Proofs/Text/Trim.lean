import Eligibility.Text.Basic

namespace Eligibility.Text

variable {a b s t part : Text}

/-- Neither end of the text is a blank. -/
def Trimmed (t : Text) : Prop :=
  (∀ c, t.head? = some c → isBlank c = false) ∧ ∀ c, t.getLast? = some c → isBlank c = false

theorem isBlank_iff {c : Char} : isBlank c = true ↔ c.toNat ≤ 32 := by
  rw [isBlank, decide_eq_true_iff, Char.le_def, UInt32.le_iff_toNat_le]
  rfl

theorem isBlank_eq_false_iff {c : Char} : isBlank c = false ↔ 32 < c.toNat := by
  rw [← Bool.not_eq_true, isBlank_iff, Nat.not_le]

theorem all_isBlank_iff : t.all isBlank = true ↔ ∀ c ∈ t, c.toNat ≤ 32 := by
  simp only [List.all_eq_true, isBlank_iff]

theorem not_mem_of_all {p : Char → Bool} {c : Char} (h : t.all p = true) (hc : p c = false) :
    c ∉ t := by
  intro hm
  have hp := List.all_eq_true.1 h c hm
  rw [hc] at hp
  cases hp

theorem exists_head?_of_all {p : Char → Bool} (ht : t ≠ []) (h : t.all p = true) :
    ∃ c, t.head? = some c ∧ p c = true :=
  ⟨t.head ht, List.head?_eq_some_head ht, List.all_eq_true.1 h _ (List.head_mem ht)⟩

theorem exists_getLast?_of_all {p : Char → Bool} (ht : t ≠ []) (h : t.all p = true) :
    ∃ c, t.getLast? = some c ∧ p c = true :=
  ⟨t.getLast ht, List.getLast?_eq_some_getLast ht, List.all_eq_true.1 h _ (List.getLast_mem ht)⟩

theorem takeWhile_stop {p : Char → Bool} (ha : a.all p = true)
    (hb : ∀ c, b.head? = some c → p c = false) : (a ++ b).takeWhile p = a := by
  rw [List.takeWhile_append_of_pos (List.all_eq_true.1 ha)]
  cases b with
  | nil => rw [List.takeWhile_nil, List.append_nil]
  | cons c b => rw [List.takeWhile_cons_of_neg (by simp [hb c rfl]), List.append_nil]

theorem dropWhile_stop {p : Char → Bool} (ha : a.all p = true)
    (hb : ∀ c, b.head? = some c → p c = false) : (a ++ b).dropWhile p = b := by
  rw [List.dropWhile_append_of_pos (List.all_eq_true.1 ha)]
  cases b with
  | nil => rfl
  | cons c b => rw [List.dropWhile_cons_of_neg (by simp [hb c rfl])]

theorem Trimmed.of_all {p : Char → Bool} (hp : ∀ c, p c = true → isBlank c = false)
    (h : t.all p = true) : t.Trimmed := by
  constructor
  · intro c hc
    exact hp c (List.all_eq_true.1 h c (List.mem_of_head? hc))
  · intro c hc
    exact hp c (List.all_eq_true.1 h c (List.mem_of_getLast? hc))

/-- The blanks at the two ends and what is between them determine each other. -/
theorem Trimmed.trim_pad (h : t.Trimmed) (hb : b.all isBlank = true)
    (ha : a.all isBlank = true) : trim (b ++ t ++ a) = t := by
  cases t with
  | nil =>
    have hall : (b ++ a).all isBlank = true := by rw [List.all_append, hb, ha]; rfl
    have hd := dropWhile_stop (b := []) hall nofun
    rw [List.append_nil] at hd
    rw [List.append_nil, trim, hd]
    rfl
  | cons c t =>
    have hs : ∀ d, (c :: t ++ a).head? = some d → isBlank d = false := h.1
    have he : ∀ d, (c :: t).reverse.head? = some d → isBlank d = false := by
      rw [List.head?_reverse]
      exact h.2
    have ha' : a.reverse.all isBlank = true := by rw [List.all_reverse, ha]
    rw [trim, List.append_assoc, dropWhile_stop hb hs, List.reverse_append,
      dropWhile_stop ha' he, List.reverse_reverse]

theorem Trimmed.trim_eq (h : t.Trimmed) : t.trim = t := by
  have hp := h.trim_pad (b := []) (a := []) rfl rfl
  rwa [List.nil_append, List.append_nil] at hp

theorem Trimmed.join (ha : a.Trimmed) (ha' : a ≠ []) (hb : b.Trimmed) (hb' : b ≠ []) (m : Text) :
    (a ++ m ++ b).Trimmed := by
  constructor
  · intro c hc
    rw [List.append_assoc, List.head?_append, List.head?_eq_some_head ha', Option.some_or] at hc
    exact ha.1 c ((List.head?_eq_some_head ha').trans hc)
  · intro c hc
    rw [List.getLast?_append, List.getLast?_eq_some_getLast hb', Option.some_or] at hc
    exact hb.2 c ((List.getLast?_eq_some_getLast hb').trans hc)

theorem trimmed_trim (t : Text) : t.trim.Trimmed := by
  have hlast : ∀ c, t.trim.getLast? = some c → isBlank c = false := by
    intro c hc
    rw [trim, List.getLast?_reverse] at hc
    have h := List.head?_dropWhile_not isBlank (t.dropWhile isBlank).reverse
    simpa only [hc, Bool.not_eq_true] using h
  refine ⟨fun c hc => ?_, hlast⟩
  have hp : t.trim <+: t.dropWhile isBlank := by
    rw [← List.reverse_suffix, trim, List.reverse_reverse]
    exact List.dropWhile_suffix _
  have hd : (t.dropWhile isBlank).head? = some c := by
    obtain ⟨rest, hr⟩ := hp
    rw [← hr, List.head?_append, hc, Option.some_or]
  have h := List.head?_dropWhile_not isBlank t
  simpa only [hd, Bool.not_eq_true] using h

@[simp] theorem trim_trim (t : Text) : t.trim.trim = t.trim := (trimmed_trim t).trim_eq

/-- The second text is the first one without the characters up to U+0020 at its two ends. -/
structure Strips (t s : Text) : Prop where
  exists_ends : ∃ before after : Text, t = before ++ s ++ after ∧
    (∀ c ∈ before, c.toNat ≤ 32) ∧ ∀ c ∈ after, c.toNat ≤ 32
  lt_head : ∀ c, s.head? = some c → 32 < c.toNat
  lt_last : ∀ c, s.getLast? = some c → 32 < c.toNat

theorem Strips.trimmed (h : t.Strips s) : s.Trimmed :=
  ⟨fun c hc => isBlank_eq_false_iff.2 (h.lt_head c hc),
    fun c hc => isBlank_eq_false_iff.2 (h.lt_last c hc)⟩

/-- There is one way to strip a text, and trimming is it. -/
theorem strips_iff : t.Strips s ↔ t.trim = s := by
  apply Iff.intro
  · intro h
    obtain ⟨before, after, rfl, hb, ha⟩ := h.exists_ends
    exact h.trimmed.trim_pad (all_isBlank_iff.2 hb) (all_isBlank_iff.2 ha)
  · rintro rfl
    obtain ⟨before, after, ht, hb, ha⟩ := trim_spec t
    obtain ⟨hhead, hlast⟩ := trimmed_trim t
    exact ⟨⟨before, after, ht, all_isBlank_iff.1 hb, all_isBlank_iff.1 ha⟩,
      fun c hc => isBlank_eq_false_iff.1 (hhead c hc),
      fun c hc => isBlank_eq_false_iff.1 (hlast c hc)⟩

theorem strips_trim (t : Text) : t.Strips t.trim := strips_iff.2 rfl

/-- Blanks around a text do not change what trimming leaves of it. -/
theorem trim_pad (hb : b.all isBlank = true) (ha : a.all isBlank = true) :
    trim (b ++ t ++ a) = t.trim := by
  obtain ⟨b', a', ht, hb', ha'⟩ := trim_spec t
  have he : b ++ t ++ a = (b ++ b') ++ t.trim ++ (a' ++ a) := calc
    b ++ t ++ a = b ++ (b' ++ t.trim ++ a') ++ a := by rw [← ht]
    _ = (b ++ b') ++ t.trim ++ (a' ++ a) := by simp only [List.append_assoc]
  rw [he]
  apply (trimmed_trim t).trim_pad
  · rw [List.all_append, hb, hb']; rfl
  · rw [List.all_append, ha', ha]; rfl

/-- The second text is the first one with blanks around it, or none. -/
def PadsTo (t padded : Text) : Prop := ∃ before after : Text,
  padded = before ++ t ++ after ∧ before.all isBlank = true ∧ after.all isBlank = true

theorem PadsTo.trim_eq (h : t.PadsTo a) : a.trim = t.trim := by
  obtain ⟨before, after, rfl, hb, ha⟩ := h
  exact trim_pad hb ha

theorem trim_isInfix (t : Text) : t.trim <:+: t := by
  obtain ⟨before, after, ht, _, _⟩ := trim_spec t
  exact ⟨before, after, ht.symm⟩

/-- Trimming takes nothing away in front of a text that begins as one without blanks there. -/
theorem trim_isPrefix (h : a <+: b) (hb : ∀ c, b.head? = some c → isBlank c = false) :
    a.trim <+: b := by
  have ha : a.dropWhile isBlank = a := by
    apply dropWhile_stop (a := []) rfl
    intro c hc
    obtain ⟨rest, rfl⟩ := h
    apply hb
    rw [List.head?_append, hc, Option.some_or]
  have hp : a.trim <+: a := by
    rw [← List.reverse_suffix, trim, List.reverse_reverse, ha]
    exact List.dropWhile_suffix _
  exact hp.trans h

theorem trim_isSuffix (h : ∀ c, t.getLast? = some c → isBlank c = false) : t.trim <:+ t := by
  obtain ⟨before, after, ht, _, hafter⟩ := trim_spec t
  by_cases hne : after = []
  · rw [hne, List.append_nil] at ht
    exact ⟨before, ht.symm⟩
  · obtain ⟨c, hc, hb⟩ := exists_getLast?_of_all hne hafter
    have hl : t.getLast? = some c := by rw [ht, List.getLast?_append, hc, Option.some_or]
    rw [h c hl] at hb
    cases hb

/-- Trimming a text made of two others with a third one between them leaves of the first what
trimming it leaves, and behind that its own blanks. -/
theorem exists_trim_append (ha : a.trim ≠ []) (hb : b.trim ≠ []) (m : Text) :
    ∃ after more : Text, after.all isBlank = true ∧
      trim (a ++ m ++ b) = a.trim ++ after ++ m ++ more := by
  obtain ⟨front, after, hae, hfront, hafter⟩ := trim_spec a
  obtain ⟨before, back, hbe, _, hback⟩ := trim_spec b
  have hm := (trimmed_trim a).join ha (trimmed_trim b) hb (after ++ m ++ before)
  have he : a ++ m ++ b = front ++ (a.trim ++ (after ++ m ++ before) ++ b.trim) ++ back := calc
    a ++ m ++ b = front ++ a.trim ++ after ++ m ++ (before ++ b.trim ++ back) := by
      rw [← hae, ← hbe]
    _ = front ++ (a.trim ++ (after ++ m ++ before) ++ b.trim) ++ back := by
      simp only [List.append_assoc]
  refine ⟨after, before ++ b.trim, hafter, ?_⟩
  rw [he, hm.trim_pad hfront hback]
  simp only [List.append_assoc]

theorem not_infix_trim (h : ¬ part <:+: t) : ¬ part <:+: t.trim :=
  fun hp => h (hp.trans t.trim_isInfix)

theorem mem_trim {c : Char} (hc : c ∈ t) (hb : isBlank c = false) : c ∈ t.trim := by
  obtain ⟨before, after, ht, hbefore, hafter⟩ := trim_spec t
  rw [ht, List.mem_append, List.mem_append] at hc
  rcases hc with (hc | hc) | hc
  · exact absurd hc (not_mem_of_all hbefore hb)
  · exact hc
  · exact absurd hc (not_mem_of_all hafter hb)

theorem PadsTo.not_mem {c : Char} (h : t.PadsTo a) (hc : c ∉ t) (hb : isBlank c = false) :
    c ∉ a := by
  intro hm
  have ht := mem_trim hm hb
  rw [h.trim_eq] at ht
  exact hc (t.trim_isInfix.subset ht)

end Eligibility.Text

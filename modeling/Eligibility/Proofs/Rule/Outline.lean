import Eligibility.Proofs.Traversal
import Eligibility.Proofs.Rule.Split

namespace Eligibility.Rule

variable {t p q : Text} {c : Connective}

/-- The first two pieces of a text between the separators of a connective. -/
def firstPieces (c : Connective) (t : Text) : List Text := (t.trim.pieces c.spaced).take 2

/-- The pieces of a text that have to be conditions: cut at `AND` first, then at `OR`. -/
def leafPieces (t : Text) : List (List Text) :=
  (firstPieces .and t).map fun p => (firstPieces .or p).map Text.trim

/-- Joins trees from left to right. -/
def joinAll (c : Connective) : List Tree → Tree
  | [] => .leaf []
  | t :: ts => ts.foldl (.join c) t

/-- The tree of a rule's text, read without recursion. The first piece that is not a condition is
the error. -/
def outline (t : Text) : Except ParseError Tree :=
  match (leafPieces t).flatten.find? fun p => !isCondition p with
  | some p => .error (.invalidRule p)
  | none => .ok (joinAll .and ((leafPieces t).map fun ps => joinAll .or (ps.map .leaf)))

/-- The texts that reading `t` goes on to read. -/
def parts (t : Text) : List Text :=
  match split? t.trim with
  | some (_, left, right) => [left, right]
  | none => []

/-- A text that is not split. -/
def readLeaf (t : Text) : Except ParseError Tree :=
  if isCondition t then .ok (.leaf t) else .error (.invalidRule t)

theorem firstPieces_eq (c : Connective) (t : Text) : firstPieces c t =
    match t.trim.firstTwo? c.spaced with
    | some (first, second) => [first, second]
    | none => [t.trim] := Text.take_two_pieces c.spaced_ne_nil _

theorem mem_firstPieces (h : p ∈ firstPieces c t) : ¬ c.spaced <:+: p ∧ p <:+: t.trim := by
  rw [firstPieces_eq] at h
  split at h
  case h_1 first second hf =>
    obtain ⟨hn, hn'⟩ := Text.not_infix_of_firstTwo? c.spaced_ne_nil hf
    obtain ⟨hi, hi'⟩ := Text.infix_of_firstTwo? hf
    rcases List.mem_cons.1 h with rfl | h
    · exact ⟨hn, hi⟩
    · rw [List.mem_singleton.1 h]
      exact ⟨hn', hi'⟩
  case h_2 hf =>
    rw [List.mem_singleton.1 h]
    exact ⟨Text.firstTwo?_eq_none_iff.1 hf, List.infix_rfl⟩

/-- Reading a text reads its first pieces from left to right, if the connective is the one that
the text is split at. -/
theorem parse_eq_mapM (h : ∀ left right, t.trim.firstTwo? c.spaced = some (left, right) →
    split? t.trim = some (c, left, right)) :
    parse t = ((firstPieces c t).mapM parse).map (joinAll c) := by
  rw [firstPieces_eq]
  cases hf : t.trim.firstTwo? c.spaced with
  | none =>
    simp only [List.mapM_cons, List.mapM_nil, parse_trim]
    cases parse t <;> rfl
  | some s =>
    rw [parse_eq_bind (h _ _ hf)]
    simp only [List.mapM_cons, List.mapM_nil]
    cases parse s.1 with
    | error => rfl
    | ok l => cases parse s.2 <;> rfl

theorem parse_eq_and (t : Text) :
    parse t = ((firstPieces .and t).mapM parse).map (joinAll .and) :=
  parse_eq_mapM fun _ _ => split?_eq_and

theorem parse_eq_or (ha : ¬ Connective.and.spaced <:+: t) :
    parse t = ((firstPieces .or t).mapM parse).map (joinAll .or) :=
  parse_eq_mapM fun _ _ => split?_eq_or (Text.not_infix_trim ha)

theorem parse_eq_readLeaf (ha : ¬ Connective.and.spaced <:+: t)
    (ho : ¬ Connective.or.spaced <:+: t) : parse t = readLeaf t.trim :=
  parse_eq_leaf (split?_eq_none (Text.not_infix_trim ha) (Text.not_infix_trim ho))

theorem parse_disjunct (ha : ¬ Connective.and.spaced <:+: t) :
    parse t = (((firstPieces .or t).map Text.trim).mapM readLeaf).map (joinAll .or) := by
  rw [parse_eq_or ha, List.mapM_map]
  congr 1
  apply mapM_congr
  intro p hp
  obtain ⟨ho, hi⟩ := mem_firstPieces hp
  exact parse_eq_readLeaf (fun h => ha ((h.trans hi).trans t.trim_isInfix)) ho

theorem mapM_readLeaf (ps : List Text) : ps.mapM readLeaf =
    match ps.find? fun p => !isCondition p with
    | some p => .error (.invalidRule p)
    | none => .ok (ps.map .leaf) := by
  induction ps with
  | nil => rfl
  | cons p ps ih =>
    rw [List.mapM_cons, ih, readLeaf]
    by_cases hp : isCondition p = true
    · rw [if_pos hp, List.find?_cons_of_neg (by simp [hp])]
      cases ps.find? fun p => !isCondition p <;> rfl
    · rw [if_neg hp, List.find?_cons_of_pos (by simpa using hp)]
      rfl

/-- Of errors in several lists the first one of all counts. -/
theorem mapM_mapM_readLeaf (pss : List (List Text)) :
    pss.mapM (fun ps => (ps.mapM readLeaf).map (joinAll .or)) =
      match pss.flatten.find? fun p => !isCondition p with
      | some p => .error (.invalidRule p)
      | none => .ok (pss.map fun ps => joinAll .or (ps.map .leaf)) := by
  induction pss with
  | nil => rfl
  | cons ps pss ih =>
    rw [List.mapM_cons, ih, mapM_readLeaf, List.flatten_cons, List.find?_append]
    cases ps.find? fun p => !isCondition p with
    | some p => rfl
    | none => cases pss.flatten.find? fun p => !isCondition p <;> rfl

theorem parse_eq_outline (t : Text) : parse t = outline t := by
  have h : (firstPieces .and t).mapM parse =
      (leafPieces t).mapM fun ps => (ps.mapM readLeaf).map (joinAll .or) := by
    rw [leafPieces, List.mapM_map]
    apply mapM_congr
    intro p hp
    exact parse_disjunct (mem_firstPieces hp).1
  rw [parse_eq_and, h, mapM_mapM_readLeaf, outline]
  cases (leafPieces t).flatten.find? fun p => !isCondition p <;> rfl

theorem parts_cases (t : Text) :
    (Connective.and.spaced <:+: t.trim ∧ parts t = firstPieces .and t) ∨
    (¬ Connective.and.spaced <:+: t.trim ∧ parts t = firstPieces .or t) ∨ parts t = [] := by
  have hp : ∀ c left right, t.trim.firstTwo? c.spaced = some (left, right) →
      split? t.trim = some (c, left, right) → parts t = firstPieces c t := by
    intro c left right hf hs
    rw [parts, hs, firstPieces_eq, hf]
  rcases split?_cases t.trim with ⟨left, right, hf, hs⟩ | ⟨ha, left, right, hf, hs⟩ | ⟨_, _, hs⟩
  · exact .inl ⟨Text.sep_infix_of_firstTwo? hf, hp .and left right hf hs⟩
  · exact .inr (.inl ⟨ha, hp .or left right hf hs⟩)
  · exact .inr (.inr (by rw [parts, hs]))

/-- What is split once holds no `AND`; if it held none before, it holds no `OR` either. -/
theorem mem_parts (h : p ∈ parts t) : ¬ Connective.and.spaced <:+: p ∧
    (¬ Connective.and.spaced <:+: t.trim → ¬ Connective.or.spaced <:+: p) := by
  rcases parts_cases t with ⟨ha, he⟩ | ⟨ha, he⟩ | he
  · rw [he] at h
    exact ⟨(mem_firstPieces h).1, fun hn => absurd ha hn⟩
  · rw [he] at h
    obtain ⟨ho, hi⟩ := mem_firstPieces h
    exact ⟨fun hc => ha (hc.trans hi), fun _ => ho⟩
  · rw [he] at h
    cases h

/-- Reading a rule is what the outline of its text says, in which trimming takes the characters up
to U+0020 off the two ends of a text. No part of a part of the text is split again. -/
theorem parse_reads_outline (t : Text) :
    parse t = outline t ∧ (∀ s u : Text, s.trim = u ↔ s.Strips u) ∧
      ∀ p ∈ parts t, ∀ q ∈ parts p, parts q = [] := by
  refine ⟨parse_eq_outline t, fun s u => Text.strips_iff.symm, fun p hp q hq => ?_⟩
  have ha := Text.not_infix_trim (mem_parts hp).1
  obtain ⟨hqa, hqo⟩ := mem_parts hq
  rw [parts, split?_eq_none (Text.not_infix_trim hqa) (Text.not_infix_trim (hqo ha))]

/-- The second part is split once more. -/
theorem parse_reads_outline_of_padded :
    outline "\t a > 1 AND  b > 2 OR c > 3\n".toList =
      .ok (.and (.leaf "a > 1".toList) (.or (.leaf "b > 2".toList) (.leaf "c > 3".toList))) ∧
    parse "\t a > 1 AND  b > 2 OR c > 3\n".toList =
      .ok (.and (.leaf "a > 1".toList) (.or (.leaf "b > 2".toList) (.leaf "c > 3".toList))) ∧
    Text.Strips "\t a > 1 AND  b > 2 OR c > 3\n".toList "a > 1 AND  b > 2 OR c > 3".toList ∧
    " b > 2 OR c > 3".toList ∈ parts "\t a > 1 AND  b > 2 OR c > 3\n".toList ∧
    "c > 3".toList ∈ parts " b > 2 OR c > 3".toList ∧ parts "c > 3".toList = [] := by
  have ho : outline "\t a > 1 AND  b > 2 OR c > 3\n".toList =
      .ok (.and (.leaf "a > 1".toList) (.or (.leaf "b > 2".toList) (.leaf "c > 3".toList))) := by
    simp only [outline, leafPieces, firstPieces_eq]
    decide
  have hp : " b > 2 OR c > 3".toList ∈ parts "\t a > 1 AND  b > 2 OR c > 3\n".toList := by decide
  have hq : "c > 3".toList ∈ parts " b > 2 OR c > 3".toList := by decide
  obtain ⟨hread, htrim, hparts⟩ := parse_reads_outline "\t a > 1 AND  b > 2 OR c > 3\n".toList
  exact ⟨ho, hread.trans ho, (htrim _ _).1 (by decide), hp, hq, hparts _ hp _ hq⟩

end Eligibility.Rule

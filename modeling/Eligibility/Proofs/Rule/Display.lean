import Eligibility.Proofs.Rule.Shape
import Eligibility.Proofs.Rule.Spine
import Eligibility.Tree.Display

namespace Eligibility

namespace Rule

/-- A tree of any size in which `AND` and `OR` join texts that are read as operands. -/
inductive Joined : Tree → Prop
  | leaf {v : Text} (hv : parse v = .ok (.leaf v)) : Joined (.leaf v)
  | join {c : Connective} {l r : Tree} (hc : c = .and ∨ c = .or) (hl : Joined l) (hr : Joined r) :
      Joined (.join c l r)

/-- What can stand behind a tree that is part of a larger one: parentheses that close, and behind
them the end or a connective. -/
inductive Follows : Text → Prop
  | nil : Follows []
  | close {rest : Text} (h : Follows rest) : Follows (')' :: rest)
  | connective {c : Connective} (hc : c = .and ∨ c = .or) (rest : Text) :
      Follows (c.spaced ++ rest)

variable {s v w x y : Text} {c c' : Connective} {t u : Tree} {us : List Tree} {ts : List Text}
  {d : Char}

theorem not_spaced_infix_of_operand (hv : parse v = .ok (.leaf v)) (hc : c = .and ∨ c = .or) :
    ¬ c.spaced <:+: v := by
  obtain ⟨_, ha, ho⟩ := operand_iff.1 hv
  rcases hc with rfl | rfl
  · exact ha
  · exact ho

theorem not_digit_or_quote_of_mem_spaced (hc : c = .and ∨ c = .or) (hd : d ∈ c.spaced) :
    ¬ (d.isDigit = true ∨ d = '\'') := by
  have hall : c.spaced.all (fun e => !e.isDigit && e != '\'') = true := by
    rcases hc with rfl | rfl
    · rfl
    · rfl
  simpa [not_or] using List.all_eq_true.1 hall d hd

/-- No operand reaches into what follows it. -/
theorem Follows.eq_nil_of_operand (h : Follows (x ++ y))
    (hv : parse (v ++ x) = .ok (.leaf (v ++ x))) : x = [] := by
  generalize hz : x ++ y = z at h
  induction h generalizing v x with
  | nil => exact (List.append_eq_nil_iff.1 hz).1
  | @close rest _ ih =>
    cases x with
    | nil => rfl
    | cons e x =>
      obtain ⟨rfl, hrest⟩ := List.cons.inj hz
      rw [List.append_cons] at hv
      cases ih hv hrest
      rw [List.append_nil] at hv
      exact absurd (digit_or_quote_of_isCondition (operand_iff.1 hv).1) (by decide)
  | @connective c hc rest =>
    rcases List.append_eq_append_iff.1 hz with ⟨m, hm, _⟩ | ⟨m, rfl, _⟩
    · -- Part of the connective would be the end of the operand.
      rcases List.eq_nil_or_concat' x with rfl | ⟨x, e, rfl⟩
      · rfl
      · have he : e ∈ c.spaced := by
          rw [hm]
          exact List.mem_append_left _ (List.mem_append_right _ (List.mem_singleton_self e))
        rw [← List.append_assoc] at hv
        exact absurd (digit_or_quote_of_isCondition (operand_iff.1 hv).1)
          (not_digit_or_quote_of_mem_spaced hc he)
    · -- The whole connective would stand in the operand.
      apply absurd _ (not_spaced_infix_of_operand hv hc)
      rw [← List.append_assoc]
      exact ⟨v, m, rfl⟩

theorem operand_append_inj (hv : parse v = .ok (.leaf v)) (hw : parse w = .ok (.leaf w))
    (hx : Follows x) (hy : Follows y) (h : v ++ x = w ++ y) : v = w ∧ x = y := by
  rcases List.append_eq_append_iff.1 h with ⟨m, rfl, rfl⟩ | ⟨m, rfl, rfl⟩
  · rw [hx.eq_nil_of_operand hw]
    exact ⟨(List.append_nil v).symm, rfl⟩
  · rw [hy.eq_nil_of_operand hv]
    exact ⟨List.append_nil w, rfl⟩

theorem spaced_append_inj (hc : c = .and ∨ c = .or) (hc' : c' = .and ∨ c' = .or)
    (h : c.spaced ++ x = c'.spaced ++ y) : c = c' ∧ x = y := by
  rcases hc with rfl | rfl <;> rcases hc' with rfl | rfl
  · exact ⟨rfl, List.append_cancel_left h⟩
  · cases h
  · cases h
  · exact ⟨rfl, List.append_cancel_left h⟩

theorem operand_ne_open (hv : parse v = .ok (.leaf v)) : v ++ x ≠ '(' :: y := by
  intro h
  obtain ⟨c, hc, rfl⟩ := isCondition_iff.1 (operand_iff.1 hv).1
  obtain ⟨d, hd, hl⟩ := Condition.text_head? hc
  have hhead := congrArg List.head? h
  rw [List.head?_append, hd, Option.some_or] at hhead
  cases hhead
  cases hl

theorem display_join_append (c : Connective) (l r : Tree) (x : Text) :
    (Tree.join c l r).display ++ x =
      '(' :: (l.display ++ (c.spaced ++ (r.display ++ ')' :: x))) := by
  simp only [Tree.display_join, Connective.spaced, Text.spaced, List.append_assoc,
    List.cons_append, List.nil_append]

/-- Where a tree ends in a text can be told from the text alone. -/
theorem display_append_inj (ht : Joined t) (hu : Joined u) (hx : Follows x) (hy : Follows y)
    (h : t.display ++ x = u.display ++ y) : t = u ∧ x = y := by
  induction ht generalizing u x y with
  | @leaf v hv =>
    rw [Tree.display_leaf] at h
    cases hu with
    | leaf hw =>
      rw [Tree.display_leaf] at h
      obtain ⟨rfl, he⟩ := operand_append_inj hv hw hx hy h
      exact ⟨rfl, he⟩
    | join hc hl hr =>
      rw [display_join_append] at h
      exact absurd h (operand_ne_open hv)
  | @join c l r hc _ _ ihl ihr =>
    rw [display_join_append] at h
    cases hu with
    | leaf hw =>
      rw [Tree.display_leaf] at h
      exact absurd h.symm (operand_ne_open hw)
    | @join c' l' r' hc' hl' hr' =>
      rw [display_join_append] at h
      obtain ⟨rfl, hbehind⟩ := ihl hl' (.connective hc _) (.connective hc' _) (List.cons.inj h).2
      obtain ⟨rfl, hright⟩ := spaced_append_inj hc hc' hbehind
      obtain ⟨rfl, hclose⟩ := ihr hr' (.close hx) (.close hy) hright
      exact ⟨rfl, (List.cons.inj hclose).2⟩

theorem display_inj (ht : Joined t) (hu : Joined u) (h : t.display = u.display) : t = u := by
  have ha : t.display ++ [] = u.display ++ [] := congrArg (· ++ []) h
  exact (display_append_inj ht hu .nil .nil ha).1

theorem Disjunct.joined (h : Disjunct u) : Joined u := by
  cases h with
  | leaf hv => exact .leaf hv
  | or hv hw => exact .join (.inr rfl) (.leaf hv) (.leaf hw)

theorem joined_of_parse (h : parse s = .ok u) : Joined u := by
  cases shape_of_parse h with
  | disjunct hd => exact hd.joined
  | and hl hr => exact .join (.inl rfl) hl.joined hr.joined

theorem joined_foldl (hc : c = .and ∨ c = .or) (ht : Joined t) (hus : ∀ u ∈ us, Joined u) :
    Joined (us.foldl (.join c) t) := by
  induction us generalizing t with
  | nil => exact ht
  | cons u us ih =>
    rw [List.forall_mem_cons] at hus
    exact ih (.join hc ht hus.1) hus.2

theorem joined_of_combine (h : combine ts = .ok t) : Joined t := by
  obtain ⟨v, vs, hmap, rfl⟩ := exists_trees_of_combine h
  have hparts : ∀ u ∈ v :: vs, Joined u := by
    intro u hu
    have hm : Except.ok u ∈ ts.map parse := by
      rw [hmap]
      exact List.mem_map_of_mem hu
    obtain ⟨s, _, hs⟩ := List.mem_map.1 hm
    exact joined_of_parse hs
  rw [List.forall_mem_cons] at hparts
  exact joined_foldl (chooseConnective_cases ts) hparts.1 hparts.2

/-- Of trees whose operands are those of rules, whatever their size, no two have the same display.
All trees that are read or combined are of this kind. -/
theorem display_unambiguous :
    (∀ t u, Joined t → Joined u → (t.display = u.display ↔ t = u)) ∧
    (∀ s u, parse s = .ok u → Joined u) ∧ ∀ ts u, combine ts = .ok u → Joined u := by
  refine ⟨fun t u ht hu => ?_, fun _ _ => joined_of_parse, fun _ _ => joined_of_combine⟩
  apply Iff.intro
  · exact display_inj ht hu
  · exact congrArg Tree.display

theorem display_tells_groupings_apart :
    ∃ t u v, combine ["a = '('".toList, "b = ')' OR c = 'x'".toList] = .ok t ∧
      combine ["a = '(' OR b = ')'".toList, "c = 'x'".toList] = .ok u ∧
      parse "a = '(' AND b = ')' OR c = 'x'".toList = .ok v ∧
      t.display ≠ u.display ∧ t.display ≠ v.display := by
  have ht : ["a = '('".toList, "b = ')' OR c = 'x'".toList].map parse =
      [.leaf "a = '('".toList, .or (.leaf "b = ')'".toList) (.leaf "c = 'x'".toList)].map .ok := by
    simp only [List.map_cons, List.map_nil, parse_eq_parseWithin]
    decide
  have hu : ["a = '(' OR b = ')'".toList, "c = 'x'".toList].map parse =
      [.or (.leaf "a = '('".toList) (.leaf "b = ')'".toList), .leaf "c = 'x'".toList].map .ok := by
    simp only [List.map_cons, List.map_nil, parse_eq_parseWithin]
    decide
  have hv : parse "a = '(' AND b = ')' OR c = 'x'".toList = .ok (.and (.leaf "a = '('".toList)
      (.or (.leaf "b = ')'".toList) (.leaf "c = 'x'".toList))) :=
    parse_eq_ok_of_parseWithin (by decide)
  have hct := combine_eq_ok ht
  have hcu := combine_eq_ok hu
  obtain ⟨hdisplay, hparse, hcombine⟩ := display_unambiguous
  have htu := hdisplay _ _ (hcombine _ _ hct) (hcombine _ _ hcu)
  have htv := hdisplay _ _ (hcombine _ _ hct) (hparse _ _ hv)
  exact ⟨_, _, _, hct, hcu, hv, mt htu.1 (by decide), mt htv.1 (by decide)⟩

end Rule

end Eligibility

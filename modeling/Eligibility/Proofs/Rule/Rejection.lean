import Eligibility.Proofs.Rule.Spine

namespace Eligibility.Rule

variable {α β : Type} {x : ExceptT ParseError Logged α} {e t : Text} {ts : List Text}

/-- A text that is reported as no rule: stripped, of one part, and not a condition. -/
structure Rejected (e : Text) : Prop where
  strips : e.Strips e
  not_and_infix : ¬ Connective.and.spaced <:+: e
  not_or_infix : ¬ Connective.or.spaced <:+: e
  not_condition : isCondition e = false

theorem Rejected.parse_eq (h : Rejected e) : parse e = .error (.invalidRule e) := by
  rw [parse_eq_readLeaf h.not_and_infix h.not_or_infix, Text.strips_iff.1 h.strips, readLeaf,
    h.not_condition]
  rfl

/-- Any text that has to be a condition is a stripped part of the whole without a connective. -/
theorem mem_leafPieces {p : Text} (h : p ∈ (leafPieces t).flatten) :
    p <:+: t ∧ p.Strips p ∧ ¬ Connective.and.spaced <:+: p ∧ ¬ Connective.or.spaced <:+: p := by
  obtain ⟨ps, hps, hp⟩ := List.mem_flatten.1 h
  obtain ⟨q, hq, rfl⟩ := List.mem_map.1 hps
  obtain ⟨r, hr, rfl⟩ := List.mem_map.1 hp
  obtain ⟨hqa, hqt⟩ := mem_firstPieces hq
  obtain ⟨hro, hrq⟩ := mem_firstPieces hr
  have hi : r.trim <:+: q := (r.trim_isInfix.trans hrq).trans q.trim_isInfix
  refine ⟨(hi.trans hqt).trans t.trim_isInfix, Text.strips_iff.2 r.trim_trim, ?_,
    Text.not_infix_trim hro⟩
  intro ha
  exact hqa (ha.trans hi)

theorem infix_and_rejected_of_parse (h : parse t = .error (.invalidRule e)) :
    e <:+: t ∧ Rejected e := by
  rw [parse_eq_outline, outline] at h
  split at h
  case h_1 p hp =>
    cases h
    obtain ⟨hi, ht, ha, ho⟩ := mem_leafPieces (List.mem_of_find?_eq_some hp)
    have hc := List.find?_some hp
    rw [Bool.not_eq_true'] at hc
    exact ⟨hi, ht, ha, ho, hc⟩
  case h_2 => cases h

/-- What there is to report of a reading: nothing of a rule, and of a failure its text, once. -/
def rejections : Except ParseError α → List Event
  | .ok _ => []
  | .error (.invalidRule e) => [.rejectedRule e]

theorem rejections_map (f : α → β) (y : Except ParseError α) :
    rejections (y.map f) = rejections y := by
  cases y with
  | ok u => rfl
  | error e => rfl

/-- The events of the reading are what there is to report of its outcome. -/
def Reported (x : ExceptT ParseError Logged α) : Prop := x.run.events = rejections x.run.answer

theorem Reported.bind {f : α → ExceptT ParseError Logged β} (hx : Reported x)
    (hf : ∀ u, Reported (f u)) : Reported (x >>= f) := by
  rw [Reported] at hx
  rw [Reported, ExceptT.run_bind, Logged.events_bind, Logged.answer_bind, hx]
  cases x.run.answer with
  | ok u => exact hf u
  | error e => exact List.append_nil _

theorem reported_parseM (t : Text) : Reported (parseM t) := by
  fun_induction parseM t with
  | case1 t c left right h ihl ihr =>
    apply ihl.bind
    intro l
    apply ihr.bind
    intro r
    rfl
  | case2 t h hc => rfl
  | case3 t h hc => rfl

theorem Reported.appendRuleM {root : ExceptT ParseError Logged Tree} (h : Reported root)
    (c : Connective) (t : Text) : Reported (appendRuleM c root t) := by
  apply h.bind
  intro l
  apply (reported_parseM t).bind
  intro r
  rfl

theorem Reported.foldl {root : ExceptT ParseError Logged Tree} (h : Reported root)
    (c : Connective) (ts : List Text) : Reported (ts.foldl (Rule.appendRuleM c) root) := by
  induction ts generalizing root with
  | nil => exact h
  | cons t ts ih => exact ih (h.appendRuleM c t)

theorem rejections_foldl (c : Connective) (t : Text) (ts : List Text) :
    rejections (ts.foldl (appendRule c) (parse t)) = rejections ((t :: ts).mapM parse) := by
  rw [foldl_appendRule]
  cases ht : parse t with
  | error e =>
    rw [mapM_cons_of_error ht]
    rfl
  | ok u =>
    rw [mapM_cons_of_ok ht, rejections_map]
    exact rejections_map _ _

/-- What is reported of texts before they are combined: how many there are, how many of them hold
an `AND` and how many an `OR`, and the connective that follows from it. -/
def combining (ts : List Text) : Event :=
  .combiningRules ts.length (ts.countP (Connective.and.spaced <:+: ·))
    (ts.countP (Connective.or.spaced <:+: ·)) (chooseConnective ts)

theorem events_combineM (h : ts ≠ []) :
    (combineM ts).run.events = combining ts :: rejections (ts.mapM parse) := by
  cases ts with
  | nil => exact absurd rfl h
  | cons t ts =>
    have hadapt (y : ExceptT ParseError Logged Tree) :
        (y.adapt CombineError.parse).run.events = y.run.events := Logged.events_map _ _
    have hreported := (reported_parseM t).foldl (chooseConnective (t :: ts)) ts
    rw [Reported, answer_foldl_appendRuleM] at hreported
    rw [combining, ← holdingCount_eq rfl, ← holdingCount_eq rfl, ← rejections_foldl, parse,
      ← hreported, ← hadapt]
    rfl

/-- A text that is no rule is reported once, by the part of it that was rejected. This part is the
error, and it would be rejected again. Combining rules reports first what the connective is chosen
by, and then the first text that is no rule, as this text is reported alone. -/
theorem rejection_reported_once :
    (∀ t, (∀ u, parse t = .ok u → (parseM t).run.events = []) ∧
      ∀ e, parse t = .error (.invalidRule e) → (parseM t).run.events = [.rejectedRule e] ∧
        e <:+: t ∧ Rejected e ∧ parse e = .error (.invalidRule e)) ∧
    (combineM []).run.events = [] ∧
    ∀ ts, ts ≠ [] →
      ((∀ t ∈ ts, ∃ u, parse t = .ok u) → (combineM ts).run.events = [combining ts]) ∧
      (∀ before t after e, ts = before ++ t :: after → (∀ s ∈ before, ∃ u, parse s = .ok u) →
        parse t = .error (.invalidRule e) →
        (combineM ts).run.events = [combining ts, .rejectedRule e]) ∧
      (chooseConnective ts = .and ↔
        ts.countP (Connective.or.spaced <:+: ·) ≤ ts.countP (Connective.and.spaced <:+: ·)) := by
  refine ⟨?_, rfl, ?_⟩
  · intro t
    have hreported := reported_parseM t
    apply And.intro
    · intro u hu
      rw [hreported, ← parse, hu]
      rfl
    · intro e he
      obtain ⟨hi, hr⟩ := infix_and_rejected_of_parse he
      refine ⟨?_, hi, hr, hr.parse_eq⟩
      rw [hreported, ← parse, he]
      rfl
  · intro ts hne
    rw [events_combineM hne]
    refine ⟨?_, ?_, chooseConnective_eq_and_iff⟩
    · intro h
      obtain ⟨us, hus⟩ := exists_map_eq_ok h
      rw [mapM_eq_ok_iff.2 hus]
      rfl
    · intro before t after e hts hbefore he
      rw [mapM_eq_error_iff.2 ⟨before, t, after, hts, hbefore, he⟩]
      rfl

/-- The last text is no rule either, but it is not read any more. -/
theorem rejection_reported_once_of_three :
    (parse "a > 1 AND b = 'x' OR c >> 3 ".toList = .error (.invalidRule "c >> 3".toList) ∧
      (parseM "a > 1 AND b = 'x' OR c >> 3 ".toList).run.events =
        [.rejectedRule "c >> 3".toList]) ∧
    (∃ u, parse "d < 4".toList = .ok u) ∧
    (combineM ["d < 4".toList, "a > 1 AND b = 'x' OR c >> 3 ".toList, "? OR ?".toList]).run.events =
      [.combiningRules 3 1 2 .or, .rejectedRule "c >> 3".toList] := by
  have hd : parse "d < 4".toList = .ok (.leaf "d < 4".toList) :=
    parse_eq_ok_of_parseWithin (by decide)
  have he : parse "a > 1 AND b = 'x' OR c >> 3 ".toList = .error (.invalidRule "c >> 3".toList) := by
    rw [parse_eq_parseWithin]
    decide
  obtain ⟨hread, -, hcombine⟩ := rejection_reported_once
  refine ⟨⟨he, ((hread _).2 _ he).1⟩, ⟨_, hd⟩, ?_⟩
  exact (hcombine _ (List.cons_ne_nil _ _)).2.1 ["d < 4".toList] _ ["? OR ?".toList] _ rfl
    (List.forall_mem_singleton.2 ⟨_, hd⟩) he

end Eligibility.Rule

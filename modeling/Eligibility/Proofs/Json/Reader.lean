import Eligibility.Json.Reader
import Eligibility.Json.Writer
import Eligibility.Proofs.Json.Numeral
import Eligibility.Proofs.Json.Quoted
import Eligibility.Proofs.Traversal

namespace Eligibility.Json

variable {t rest : Text} {tok : Token} {p : Progress} {phase : Phase} {frames : List Frame}
  {items : List Json} {members : List (Text × Json)}

namespace Token

theorem readAllFrom?_of_blank (before : List Token) (h : t.dropWhile isWhitespace = []) :
    readAllFrom? before t = some before.reverse := by
  rw [readAllFrom?]
  split
  case h_1 => rfl
  case h_2 c u ht => cases h.symm.trans ht

theorem readAllFrom?_of_none (before : List Token) {c : Char} {u : Text}
    (h : t.dropWhile isWhitespace = c :: u) (hr : read? (c :: u) = none) :
    readAllFrom? before t = none := by
  rw [readAllFrom?]
  split
  case h_1 ht => cases h.symm.trans ht
  case h_2 d v ht =>
    cases h.symm.trans ht
    split
    case h_1 => rfl
    case h_2 tok rest hs => cases hr.symm.trans hs

theorem readAllFrom?_of_some (before : List Token) {c : Char} {u : Text}
    (h : t.dropWhile isWhitespace = c :: u) (hr : read? (c :: u) = some (tok, rest)) :
    readAllFrom? before t = readAllFrom? (tok :: before) rest := by
  rw [readAllFrom?]
  split
  case h_1 ht => cases h.symm.trans ht
  case h_2 d v ht =>
    cases h.symm.trans ht
    split
    case h_1 hn => cases hr.symm.trans hn
    case h_2 tok' rest' hs =>
      cases hr.symm.trans hs
      rfl

theorem readAllFrom?_eq (before : List Token) (t : Text) :
    readAllFrom? before t = (readAll? t).map (before.reverse ++ ·) := by
  -- A token takes an unknown part of the text, so the induction is on the length.
  induction hn : t.length using Nat.strong_induction_on generalizing before t with
  | _ n ih =>
    cases ht : t.dropWhile isWhitespace with
    | nil =>
      rw [readAll?, readAllFrom?_of_blank before ht, readAllFrom?_of_blank [] ht, Option.map_some,
        List.reverse_nil, List.append_nil]
    | cons c u =>
      cases hr : read? (c :: u) with
      | none =>
        rw [readAll?, readAllFrom?_of_none before ht hr, readAllFrom?_of_none [] ht hr,
          Option.map_none]
      | some r =>
        obtain ⟨tok, rest⟩ := r
        have hlt : rest.length < n := by
          have hd := Text.length_dropWhile_le isWhitespace t
          have hl := length_read? hr
          rw [ht] at hd
          omega
        rw [readAll?, readAllFrom?_of_some before ht hr, readAllFrom?_of_some [] ht hr,
          ih _ hlt (tok :: before) rest rfl, ih _ hlt [tok] rest rfl, Option.map_map]
        simp [Function.comp_def]

theorem readAll?_nil : readAll? [] = some [] := readAllFrom?_of_blank [] rfl

theorem readAll?_cons (hw : t.dropWhile isWhitespace = t) (h : read? t = some (tok, rest)) :
    readAll? t = (readAll? rest).map (tok :: ·) := by
  cases t with
  | nil => cases h
  | cons c u =>
    rw [readAll?, readAllFrom?_of_some [] hw h, readAllFrom?_eq]
    rfl

/-- Reads the tokens of a text with less than `n` of them. -/
def readWithin? : (n : Nat) → Text → Option (List Token)
  | 0, _ => none
  | n + 1, t =>
    match t.dropWhile isWhitespace with
    | [] => some []
    | c :: u => (read? (c :: u)).bind fun p => (readWithin? n p.2).map (p.1 :: ·)

theorem readAll?_of_readWithin? {n : Nat} {toks : List Token} (h : readWithin? n t = some toks) :
    readAll? t = some toks := by
  induction n generalizing t toks with
  | zero => cases h
  | succ n ih =>
    rw [readWithin?] at h
    split at h
    case h_1 ht =>
      cases h
      exact readAllFrom?_of_blank [] ht
    case h_2 c u ht =>
      obtain ⟨p, hp, hrest⟩ := Option.bind_eq_some_iff.1 h
      obtain ⟨more, hmore, rfl⟩ := Option.map_eq_some_iff.1 hrest
      rw [readAll?, readAllFrom?_of_some [] ht hp, readAllFrom?_eq, ih hmore]
      rfl

theorem read?_string (t rest : Text) :
    read? (Quoted.writeOnto t rest) = some (string (some t), rest) := by
  change (Quoted.read? _).map _ = _
  rw [Quoted.read?_write]
  rfl

/-- What begins like a number is read as a numeral. -/
theorem read?_eq_numeral {c : Char} (hc : t.head? = some c) (h : c = '-' ∨ c.isDigit = true) :
    read? t = (Numeral.read? t).map fun p => (scalar p.1.toJson, p.2) := by
  unfold read?
  split
  case h_11 => rfl
  all_goals
    cases hc
    exact absurd h (by decide)

theorem read?_integer {n : Int} (hn : n.natAbs < UInt64.size) (h : Ends rest) :
    read? (Text.ofInt n ++ rest) = some (scalar (integer n), rest) := by
  obtain ⟨c, hc, hcd⟩ := Numeral.exists_head?_ofInt n rest
  rw [read?_eq_numeral hc hcd, Numeral.read?_ofInt n h, Option.map_some, Numeral.toJson_ofInt hn]

theorem not_isWhitespace {c : Char} (h : c = '-' ∨ c.isDigit = true) : isWhitespace c = false := by
  rw [← Bool.not_eq_true]
  intro hw
  simp only [isWhitespace, Bool.or_eq_true, decide_eq_true_eq] at hw
  rcases hw with ((rfl | rfl) | rfl) | rfl
  all_goals exact absurd h (by decide)

theorem dropWhile_integer (n : Int) (rest : Text) :
    (Text.ofInt n ++ rest).dropWhile isWhitespace = Text.ofInt n ++ rest := by
  obtain ⟨c, hc, hcd⟩ := Numeral.exists_head?_ofInt n rest
  cases ht : Text.ofInt n ++ rest with
  | nil => rfl
  | cons d u =>
    rw [ht] at hc
    cases hc
    apply List.dropWhile_cons_of_neg
    rw [not_isWhitespace hcd]
    exact Bool.false_ne_true

end Token

namespace Progress

/-- Goes on to the end of the text, which has to be the end of the value. -/
def readFrom? (p : Progress) (t : Text) : Option Json := (Token.readAll? t).bind p.finish?

theorem readFrom?_finished (j : Json) : (finished j).readFrom? [] = some j := by
  rw [readFrom?, Token.readAll?_nil]
  rfl

theorem finish?_cons (p : Progress) (tok : Token) (toks : List Token) :
    p.finish? (tok :: toks) = (p.step? tok).bind (finish? · toks) := by
  cases p with
  | reading phase frames =>
    rw [finish?]
    cases (reading phase frames).step? tok <;> rfl
  | finished j => rfl

theorem readFrom?_token (p : Progress) (tok : Token) (hw : t.dropWhile Token.isWhitespace = t)
    (h : Token.read? t = some (tok, rest)) :
    p.readFrom? t = (p.step? tok).bind (·.readFrom? rest) := by
  rw [readFrom?, Token.readAll?_cons hw h]
  cases hr : Token.readAll? rest with
  | none => cases p.step? tok <;> simp [readFrom?, hr]
  | some toks => simp [readFrom?, hr, finish?_cons]

/-- Where a value can begin, the only token that need not begin one closes an empty array. -/
theorem step?_eq_begin? (tok : Token) (h : phase = .value ∨ phase = .firstItem)
    (ht : tok ≠ .closeArray) :
    (reading phase frames).step? tok = begin? frames tok := by
  rcases h with rfl | rfl
  · rfl
  · rw [step?]
    intro _ _ hc _
    exact ht hc

end Progress

/-- What is read back as it was written: the value has no decimals, its integers are those of 64
bits, of either sign, and nothing in it is garbled. -/
inductive Plain : Json → Prop
  | null : Plain null
  | bool (b : Bool) : Plain (bool b)
  | integer {n : Int} (h : n.natAbs < UInt64.size) : Plain (integer n)
  | string (t : Text) : Plain (string t)
  | array {items : List Json} (h : ∀ j ∈ items, Plain j) : Plain (array items)
  | object {members : List (Text × Json)} (h : ∀ m ∈ members, Plain m.2) : Plain (object members)

namespace Progress

/-- Wherever a value can begin, the text of `j` is read as `j`. -/
def Reads (j : Json) : Prop :=
  ∀ phase, phase = .value ∨ phase = .firstItem → ∀ (frames : List Frame) (rest : Text), Ends rest →
    (reading phase frames).readFrom? (j.writeOnto rest) = (settle j frames).readFrom? rest

theorem reads_of_token {j : Json} (tok : Token) (htok : tok ≠ .closeArray)
    (hbegin : ∀ frames, begin? frames tok = some (settle j frames))
    (hw : ∀ rest, (j.writeOnto rest).dropWhile Token.isWhitespace = j.writeOnto rest)
    (hread : ∀ rest, Ends rest → Token.read? (j.writeOnto rest) = some (tok, rest)) : Reads j := by
  intro phase hphase frames rest hrest
  rw [readFrom?_token _ _ (hw rest) (hread rest hrest), step?_eq_begin? tok hphase htok,
    hbegin frames, Option.bind_some]

theorem reads_scalar {j : Json}
    (hw : ∀ rest, (j.writeOnto rest).dropWhile Token.isWhitespace = j.writeOnto rest)
    (hread : ∀ rest, Ends rest → Token.read? (j.writeOnto rest) = some (.scalar j, rest)) :
    Reads j := reads_of_token (.scalar j) nofun (fun _ => rfl) hw hread

theorem reads_string (t : Text) : Reads (string t) := by
  apply reads_of_token (.string (some t))
  · exact nofun
  · exact fun _ => rfl
  · exact fun _ => rfl
  · intro rest _
    exact Token.read?_string t rest

theorem readFrom?_items (h : ∀ j ∈ items, Reads j) (hne : items ≠ [])
    (hphase : phase = .value ∨ phase = .firstItem) (before : List Json) (frames : List Frame)
    (rest : Text) :
    (reading phase (.array before :: frames)).readFrom? (writeItemsOnto items (']' :: rest)) =
      (settle (array (before.reverse ++ items)) frames).readFrom? rest := by
  -- An item goes from the text into the frame, where the next one finds it; the first item alone
  -- is read in the phase that also allows the array to end.
  induction items generalizing phase before with
  | nil => exact absurd rfl hne
  | cons j items ih =>
    obtain ⟨hj, hitems⟩ := List.forall_mem_cons.1 h
    cases items with
    | nil =>
      rw [writeItemsOnto, hj _ hphase _ _ (.closeArray rest), settle,
        readFrom?_token _ .closeArray rfl rfl, step?, Option.bind_some, List.reverse_cons]
    | cons j' items =>
      rw [writeItemsOnto, hj _ hphase _ _ (.comma _), settle,
        readFrom?_token _ .comma rfl rfl, step?, Option.bind_some,
        ih hitems (List.cons_ne_nil j' items) (.inl rfl), List.reverse_cons, List.append_assoc]
      · rfl
      · exact List.cons_ne_nil j' items

theorem reads_array (h : ∀ j ∈ items, Reads j) : Reads (array items) := by
  intro phase hphase frames rest _
  rw [writeOnto, readFrom?_token _ .openArray rfl rfl,
    step?_eq_begin? .openArray hphase nofun, begin?, Option.bind_some]
  cases items with
  | nil =>
    rw [writeItemsOnto, readFrom?_token _ .closeArray rfl rfl]
    rfl
  | cons j items => exact readFrom?_items h (List.cons_ne_nil j items) (.inr rfl) [] frames rest

theorem readFrom?_name (hphase : phase = .name ∨ phase = .firstName) (t : Text)
    (before : List (Option Text × Json)) (name : Option Text) (frames : List Frame) (rest : Text) :
    (reading phase (.object before name :: frames)).readFrom? (Quoted.writeOnto t (':' :: rest)) =
      (reading .value (.object before (some t) :: frames)).readFrom? rest := by
  rw [readFrom?_token _ _ rfl (Token.read?_string t _)]
  rcases hphase with rfl | rfl
  all_goals
    rw [step?, Option.bind_some, readFrom?_token _ .colon rfl rfl, step?, Option.bind_some]

/-- The members as they stand in a frame: each name denotes a text. -/
def named (members : List (Text × Json)) : List (Option Text × Json) :=
  members.map fun m => (some m.1, m.2)

theorem named_cons (m : Text × Json) (members : List (Text × Json)) :
    named (m :: members) = (some m.1, m.2) :: named members := rfl

theorem ofMembers_reverse_named (members : List (Text × Json)) :
    ofMembers (named members).reverse = object members.reverse := by
  have hread : ∀ m : Text × Json, named? (some m.1, m.2) = some m := fun _ => rfl
  rw [named, ← List.map_reverse, ofMembers, mapM_map_eq_some hread, Option.elim_some]

theorem readFrom?_members (h : ∀ m ∈ members, Reads m.2) (hne : members ≠ [])
    (hphase : phase = .name ∨ phase = .firstName) (before : List (Text × Json))
    (name : Option Text) (frames : List Frame) (rest : Text) :
    (reading phase (.object (named before) name :: frames)).readFrom?
        (writeMembersOnto members ('\x7d' :: rest)) =
      (settle (object (before.reverse ++ members)) frames).readFrom? rest := by
  induction members generalizing phase before name with
  | nil => exact absurd rfl hne
  | cons m members ih =>
    obtain ⟨hm, hmembers⟩ := List.forall_mem_cons.1 h
    cases members with
    | nil =>
      rw [writeMembersOnto, readFrom?_name hphase, hm _ (.inl rfl) _ _ (.closeObject rest), settle,
        readFrom?_token _ .closeObject rfl rfl, step?, Option.bind_some,
        ← named_cons, ofMembers_reverse_named, List.reverse_cons]
    | cons m' members =>
      rw [writeMembersOnto, readFrom?_name hphase, hm _ (.inl rfl) _ _ (.comma _), settle,
        readFrom?_token _ .comma rfl rfl, step?, Option.bind_some,
        ← named_cons, ih hmembers (List.cons_ne_nil m' members) (.inl rfl), List.reverse_cons,
        List.append_assoc]
      · rfl
      · exact List.cons_ne_nil m' members

theorem reads_object (h : ∀ m ∈ members, Reads m.2) : Reads (object members) := by
  intro phase hphase frames rest _
  rw [writeOnto, readFrom?_token _ .openObject rfl rfl,
    step?_eq_begin? .openObject hphase nofun, begin?, Option.bind_some]
  cases members with
  | nil =>
    rw [writeMembersOnto, readFrom?_token _ .closeObject rfl rfl]
    rfl
  | cons m members =>
    exact readFrom?_members h (List.cons_ne_nil m members) (.inr rfl) [] none frames rest

theorem reads_of_plain {j : Json} (h : Plain j) : Reads j := by
  induction h with
  | null => exact reads_scalar (fun _ => rfl) fun _ _ => rfl
  | bool b =>
    cases b with
    | false => exact reads_scalar (fun _ => rfl) fun _ _ => rfl
    | true => exact reads_scalar (fun _ => rfl) fun _ _ => rfl
  | @integer n h =>
    apply reads_scalar
    · exact Token.dropWhile_integer n
    · intro rest hrest
      exact Token.read?_integer h hrest
  | string t => exact reads_string t
  | array _ ih => exact reads_array ih
  | object _ ih => exact reads_object ih

end Progress

/-- A plain value is read back from the document that is written of it. -/
theorem read?_write {j : Json} (h : Plain j) : read? j.write = some j := by
  have hj := Progress.reads_of_plain h .value (.inl rfl) [] [] .nil
  rwa [Progress.settle, Progress.readFrom?_finished] at hj

theorem read?_of_eq_write {d : Text} {j : Json} (hj : Plain j) (h : d = j.write) :
    read? d = some j := by
  rw [h, read?_write hj]

theorem read?_of_readWithin? {n : Nat} {toks : List Token} {j : Json}
    (ht : Token.readWithin? n t = some toks)
    (hj : (Progress.reading .value []).finish? toks = some j) : read? t = some j := by
  rw [read?, Token.readAll?_of_readWithin? ht, Option.bind_some, hj]

end Eligibility.Json

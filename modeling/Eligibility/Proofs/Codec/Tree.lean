import Eligibility.Codec.Tree
import Eligibility.Proofs.Json.Members
import Eligibility.Proofs.Json.Reader
import Eligibility.Proofs.Rule.Image

namespace Eligibility

open Json (Widens)

variable {t u v : Tree} {j j₁ j₂ : Json} {d : Text}

namespace Connective

/-- The connective itself, but the one with a name where `other` hides it. -/
def resolve : Connective → Connective
  | other ['A', 'N', 'D'] => and
  | other ['O', 'R'] => or
  | c => c

theorem ofSymbol_symbol (c : Connective) : ofSymbol c.symbol = c.resolve := by
  fun_cases resolve c with
  | case1 => rfl
  | case2 => rfl
  | case3 c hand hor =>
    rw [ofSymbol_symbol_iff]
    cases c with
    | and | or => trivial
    | other s => exact ⟨fun hs => hand (congrArg other hs), fun hs => hor (congrArg other hs)⟩

theorem resolve_ofSymbol (s : Text) : (ofSymbol s).resolve = ofSymbol s := by
  rw [← ofSymbol_symbol, symbol_ofSymbol]

end Connective

namespace Tree

/-- The tree with each of its connectives resolved. -/
def resolve : Tree → Tree
  | leaf s => leaf s
  | join c l r => join c.resolve l.resolve r.resolve

theorem resolve_eq_self (h : ∀ c ∈ t.connectives, c.resolve = c) : t.resolve = t := by
  induction t with
  | leaf => rfl
  | join c l r ihl ihr =>
    obtain ⟨hc, hsides⟩ := List.forall_mem_cons.1 h
    obtain ⟨hl, hr⟩ := List.forall_mem_append.1 hsides
    rw [resolve, hc, ihl hl, ihr hr]

/-- A document of the tree. In each object the members stand in any order, and there are others
among them whose names the object's kind does not know. -/
inductive Document : Tree → Json → Prop
  | leaf {s : Text} {members : List (Text × Json)}
      (h : Widens [typeName, valueName] members
        [(typeName, .string operandTag), (valueName, .string s)]) :
      Document (leaf s) (.object members)
  | join {c : Connective} {l r : Tree} {jl jr : Json} {members : List (Text × Json)}
      (hl : Document l jl) (hr : Document r jr)
      (h : Widens [typeName, valueName, leftName, rightName] members
        [(typeName, .string operatorTag), (valueName, c.toJson), (leftName, jl), (rightName, jr)]) :
      Document (join c l r) (.object members)

theorem document_toJson (t : Tree) : Document t t.toJson := by
  induction t with
  | leaf s => exact .leaf (.refl _ _)
  | join c l r ihl ihr => exact .join ihl ihr (.refl _ _)

theorem ofJsonAt?_operand {nested : Bool} {s : Text}
    (h : Parts.ofJson? nested j = some (.operand s)) : ofJsonAt? nested j = some (leaf s) := by
  rw [ofJsonAt?]
  split
  case h_1 hn => cases h.symm.trans hn
  case h_2 s' hs =>
    cases h.symm.trans hs
    rfl
  case h_3 c l r hs => cases h.symm.trans hs

theorem ofJsonAt?_operator {nested : Bool} {c : Connective} {jl jr : Json} {l r : Tree}
    (h : Parts.ofJson? nested j = some (.operator c jl jr)) (hl : ofJsonAt? true jl = some l)
    (hr : ofJsonAt? true jr = some r) : ofJsonAt? nested j = some (join c l r) := by
  rw [ofJsonAt?]
  split
  case h_1 hn => cases h.symm.trans hn
  case h_2 s hs => cases h.symm.trans hs
  case h_3 c' jl' jr' hs =>
    cases h.symm.trans hs
    rw [hl, hr]

/-- Any document of a tree is read as the tree with its connectives resolved. -/
theorem ofJsonAt?_document (nested : Bool) (h : Document t j) :
    ofJsonAt? nested j = some t.resolve := by
  induction h generalizing nested with
  | @leaf s members h =>
    have htype : Json.only? typeName members = some (.string operandTag) := h.only? (by decide)
    have hvalue : Json.only? valueName members = some (.string s) := h.only? (by decide)
    apply ofJsonAt?_operand
    rw [Parts.ofJson?, htype, Option.bind_some, Kind.ofJson?, if_pos rfl, Option.bind_some,
      Parts.ofMembers?, hvalue]
  | @join c l r jl jr members _ _ h ihl ihr =>
    have htype : Json.only? typeName members = some (.string operatorTag) := h.only? (by decide)
    have hvalue : Json.only? valueName members = some c.toJson := h.only? (by decide)
    have hleft : Json.only? leftName members = some jl := h.only? (by decide)
    have hright : Json.only? rightName members = some jr := h.only? (by decide)
    refine ofJsonAt?_operator ?_ (ihl true) (ihr true)
    rw [Parts.ofJson?, htype, Option.bind_some, Kind.ofJson?, if_neg (by decide), if_pos rfl,
      Option.bind_some, Parts.ofMembers?, hvalue, hleft, hright, Connective.toJson]
    dsimp only
    rw [Connective.ofSymbol_symbol]

theorem fits_string (n : Nat) (s : Text) : (Json.string s).fits n = true := by
  cases n <;> rfl

/-- Each node of a tree is an object, so a document nests as deep as its tree. -/
theorem fits_toJson (t : Tree) (n : Nat) : t.toJson.fits n = true ↔ t.depth ≤ n := by
  induction t generalizing n with
  | leaf s =>
    rw [toJson, depth]
    cases n with
    | zero => simp [Json.fits]
    | succ n => simp [Json.fits, fits_string]
  | join c l r ihl ihr =>
    rw [toJson, depth]
    cases n with
    | zero => simp [Json.fits]
    | succ n =>
      simp only [Json.fits, List.all_cons, List.all_nil, Connective.toJson, fits_string,
        Bool.true_and, Bool.and_true, Bool.and_eq_true, ihl, ihr]
      omega

theorem plain_toJson (t : Tree) : t.toJson.Plain := by
  induction t with
  | leaf s =>
    apply Json.Plain.object
    simp only [List.forall_mem_cons]
    exact ⟨.string _, .string s, nofun⟩
  | join c l r ihl ihr =>
    apply Json.Plain.object
    simp only [List.forall_mem_cons]
    exact ⟨.string _, .string _, ihl, ihr, nofun⟩

theorem decode?_of_read? (h : Json.read? d = some j) :
    decode? d = if j.fits nestingLimit then ofJson? j else none := by
  rw [decode?, h, Option.bind_some]

/-- A tree comes back from its document with its connectives resolved, so as it was if they were
made from their symbols. Neither the order of an object's members nor other members change that;
only what nests too deep is refused. -/
theorem decode?_document (t : Tree) :
    (ofJson? t.toJson = some t.resolve ∧
      decode? t.encode = if t.depth ≤ nestingLimit then some t.resolve else none) ∧
    ((∀ c ∈ t.connectives, c = .and ∨ c = .or ∨ ∃ s, c = .ofSymbol s) →
      t.resolve = t ∧ ∀ j, Document t j → ofJson? j = some t ∧
        ∀ d, Json.read? d = some j →
          decode? d = if j.fits nestingLimit then some t else none) := by
  apply And.intro
  · apply And.intro
    · exact ofJsonAt?_document false (document_toJson t)
    · rw [encode, decode?_of_read? (Json.read?_write (plain_toJson t)), ofJson?,
        ofJsonAt?_document false (document_toJson t)]
      simp only [fits_toJson]
  · intro hc
    have hself : t.resolve = t := by
      apply resolve_eq_self
      intro c hmem
      rcases hc c hmem with rfl | rfl | ⟨s, rfl⟩
      · rfl
      · rfl
      · exact Connective.resolve_ofSymbol s
    refine ⟨hself, fun j hj => ?_⟩
    have hread : ofJson? j = some t := hself ▸ ofJsonAt?_document false hj
    refine ⟨hread, fun d hd => ?_⟩
    rw [decode?_of_read? hd, hread]

theorem decode?_document_reversed :
    (∀ c ∈ (join (.other "XOR".toList) (leaf "a > 1".toList) (leaf "b = 'x'".toList)).connectives,
      c = .and ∨ c = .or ∨ ∃ s, c = .ofSymbol s) ∧
    decode? ("\x7b\"note\": [1, -2.5e3], \"note\": true, \"right\": ".toList ++
      "\x7b\"left\": null, \"value\": \"b = 'x'\", \"type\": \"operand\"\x7d, ".toList ++
      "\"left\": \x7b\"value\": \"a > 1\", \"type\": \"operand\"\x7d, ".toList ++
      "\"value\": \"XOR\", \"type\": \"operator\"\x7d".toList) =
      some (join (.other "XOR".toList) (leaf "a > 1".toList) (leaf "b = 'x'".toList)) := by
  have hc : ∀ c ∈ (join (.other "XOR".toList) (leaf "a > 1".toList)
      (leaf "b = 'x'".toList)).connectives, c = .and ∨ c = .or ∨ ∃ s, c = .ofSymbol s := by
    rw [connectives, List.forall_mem_cons]
    exact ⟨.inr (.inr ⟨"XOR".toList, rfl⟩), nofun⟩
  have hl : Document (leaf "a > 1".toList) (.object
      [(typeName, .string operandTag), (valueName, .string "a > 1".toList)].reverse) :=
    .leaf ⟨[], List.reverse_perm _, nofun⟩
  have hr : Document (leaf "b = 'x'".toList) (.object [(typeName, .string operandTag),
      (valueName, .string "b = 'x'".toList), (leftName, .null)].reverse) :=
    .leaf ⟨[(leftName, .null)], List.reverse_perm _, by decide⟩
  have hj := Document.join (c := .other "XOR".toList) hl hr ⟨[("note".toList, .bool true),
    ("note".toList, .array [.integer 1, .decimal (-25) 2])], List.reverse_perm _, by decide⟩
  apply And.intro
  · exact hc
  · apply (((decode?_document _).2 hc).2 _ hj).2
    exact Json.read?_of_readWithin? (n := 60) rfl rfl

end Tree

end Eligibility

import Eligibility.Json.Reader
import Eligibility.Json.Writer
import Eligibility.Tree.Basic

namespace Eligibility

namespace Connective

def toJson (c : Connective) : Json := .string c.symbol

/-- Any string is the symbol of a connective. -/
def ofJson? : Json → Option Connective
  | .string s => some (ofSymbol s)
  | _ => none

def encode (c : Connective) : Text := c.toJson.write

def decode? (t : Text) : Option Connective := (Json.read? t).bind ofJson?

end Connective

namespace Tree

def typeName : Text := ['t', 'y', 'p', 'e']

def valueName : Text := ['v', 'a', 'l', 'u', 'e']

def leftName : Text := ['l', 'e', 'f', 't']

def rightName : Text := ['r', 'i', 'g', 'h', 't']

def operandTag : Text := ['o', 'p', 'e', 'r', 'a', 'n', 'd']

def operatorTag : Text := ['o', 'p', 'e', 'r', 'a', 't', 'o', 'r']

def toJson : Tree → Json
  | leaf t => .object [(typeName, .string operandTag), (valueName, .string t)]
  | join c l r => .object [(typeName, .string operatorTag), (valueName, c.toJson),
      (leftName, l.toJson), (rightName, r.toJson)]

inductive Kind where
  | operand
  | operator
  deriving DecidableEq

/-- The kind that a tag names. Below the root a tag can also be the number of the kind. -/
def Kind.ofJson? (nested : Bool) : Json → Option Kind
  | .string t =>
    if t = operandTag then some operand else if t = operatorTag then some operator else none
  | .integer n =>
    if nested ∧ n = 0 then some operand else if nested ∧ n = 1 then some operator else none
  | _ => none

/-- A node with its sides not yet read. -/
inductive Parts where
  | operand (condition : Text)
  | operator (connective : Connective) (left right : Json)

/-- The node of that kind with those members. Each member that the kind has is there once; others
do not count. -/
def Parts.ofMembers? (members : List (Text × Json)) : Kind → Option Parts
  | .operand =>
    match Json.only? valueName members with
    | some (.string t) => some (operand t)
    | _ => none
  | .operator =>
    match Json.only? valueName members, Json.only? leftName members,
      Json.only? rightName members with
    | some (.string s), some l, some r => some (operator (.ofSymbol s) l r)
    | _, _, _ => none

/-- The node that a value stands for: an object, or an array of what the object's members would
be. -/
def Parts.ofJson? (nested : Bool) : Json → Option Parts
  | .object members =>
    ((Json.only? typeName members).bind (Kind.ofJson? nested)).bind (ofMembers? members)
  | .array [tag, .string t] => if Kind.ofJson? nested tag = some .operand then some (operand t)
    else none
  | .array [tag, .string s, l, r] =>
    if Kind.ofJson? nested tag = some .operator then some (operator (.ofSymbol s) l r) else none
  | _ => none

theorem Parts.sizeOf_lt_of_ofJson? {nested : Bool} {j l r : Json} {c : Connective}
    (h : ofJson? nested j = some (operator c l r)) : sizeOf l < sizeOf j ∧ sizeOf r < sizeOf j := by
  unfold ofJson? at h
  split at h
  case h_1 members =>
    obtain ⟨k, _, hk⟩ := Option.bind_eq_some_iff.1 h
    unfold ofMembers? at hk
    split at hk
    · split at hk <;> cases hk
    · split at hk
      case h_1 s l' r' _ hl hr =>
        cases hk
        exact ⟨Json.sizeOf_lt_of_only? hl, Json.sizeOf_lt_of_only? hr⟩
      case h_2 => cases hk
  case h_2 => split at h <;> cases h
  case h_3 =>
    split at h
    case isTrue =>
      cases h
      simp only [Json.array.sizeOf_spec, List.cons.sizeOf_spec]
      omega
    case isFalse => cases h
  case h_4 => cases h

def ofJsonAt? (nested : Bool) (j : Json) : Option Tree :=
  match _ : Parts.ofJson? nested j with
  | none => none
  | some (.operand t) => some (leaf t)
  | some (.operator c l r) =>
    match ofJsonAt? true l, ofJsonAt? true r with
    | some left, some right => some (join c left right)
    | _, _ => none
termination_by sizeOf j
decreasing_by
  · exact (Parts.sizeOf_lt_of_ofJson? ‹_›).1
  · exact (Parts.sizeOf_lt_of_ofJson? ‹_›).2

def ofJson? (j : Json) : Option Tree := ofJsonAt? false j

/-- The number of arrays and objects that can stand inside each other in a tree's document. -/
def nestingLimit : Nat := 127

def encode (t : Tree) : Text := t.toJson.write

/-- The tree of a document. Also what does not count has to denote something, and to keep to the
nesting limit. -/
def decode? (t : Text) : Option Tree :=
  (Json.read? t).bind fun j => if j.fits nestingLimit then ofJson? j else none

end Tree

end Eligibility

import Eligibility.Json.Numeral
import Eligibility.Json.Quoted

namespace Eligibility.Json

/-- What a document is made of between its white space. A string may denote no text. -/
inductive Token where
  | openArray
  | closeArray
  | openObject
  | closeObject
  | comma
  | colon
  | string (t : Option Text)
  | scalar (j : Json)

namespace Token

def isWhitespace (c : Char) : Bool := c = ' ' || c = '\t' || c = '\n' || c = '\r'

def read? : Text → Option (Token × Text)
  | '[' :: t => some (openArray, t)
  | ']' :: t => some (closeArray, t)
  | '\x7b' :: t => some (openObject, t)
  | '\x7d' :: t => some (closeObject, t)
  | ',' :: t => some (comma, t)
  | ':' :: t => some (colon, t)
  | '"' :: t => (Quoted.read? t).map fun (s, rest) => (string s, rest)
  | 'n' :: 'u' :: 'l' :: 'l' :: t => some (scalar .null, t)
  | 't' :: 'r' :: 'u' :: 'e' :: t => some (scalar (.bool true), t)
  | 'f' :: 'a' :: 'l' :: 's' :: 'e' :: t => some (scalar (.bool false), t)
  | t => (Numeral.read? t).map fun (n, rest) => (scalar n.toJson, rest)

theorem length_read? {t rest : Text} {tok : Token} (h : read? t = some (tok, rest)) :
    rest.length < t.length := by
  unfold read? at h
  split at h
  case h_7 =>
    obtain ⟨p, hp, he⟩ := Option.map_eq_some_iff.1 h
    cases he
    exact Nat.lt_succ_of_le (Quoted.length_read? hp)
  case h_11 =>
    obtain ⟨p, hp, he⟩ := Option.map_eq_some_iff.1 h
    cases he
    exact Numeral.length_read? hp
  all_goals
    cases h
    simp only [List.length_cons]
    omega

/-- Reads the tokens of the text, with the tokens `before` (the last one first) already read. -/
def readAllFrom? (before : List Token) (t : Text) : Option (List Token) :=
  match _ : t.dropWhile isWhitespace with
  | [] => some before.reverse
  | c :: u =>
    match _ : read? (c :: u) with
    | none => none
    | some (tok, rest) => readAllFrom? (tok :: before) rest
termination_by t.length
decreasing_by
  have hd := Text.length_dropWhile_le isWhitespace t
  have hr := length_read? ‹_›
  simp_all only
  omega

def readAll? (t : Text) : Option (List Token) := readAllFrom? [] t

end Token

end Eligibility.Json

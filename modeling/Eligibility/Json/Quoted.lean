import Eligibility.Text.Basic

namespace Eligibility.Json.Quoted

/-- What a string between quotes is made of: characters that are written as they are or after a
backslash, and UTF-16 units that are written in hexadecimal. -/
inductive Element where
  | char (c : Char)
  | codeUnit (n : Nat)

def hexDigit? (c : Char) : Option Nat :=
  if c.isDigit then some (c.toNat - 48)
  else if 'a' ≤ c ∧ c ≤ 'f' then some (c.toNat - 87)
  else if 'A' ≤ c ∧ c ≤ 'F' then some (c.toNat - 55)
  else none

def hex4? (a b c d : Char) : Option Nat := do
  return ((← hexDigit? a) * 16 + (← hexDigit? b)) * 256 + (← hexDigit? c) * 16 + (← hexDigit? d)

def escaped? : Char → Option Char
  | '"' => some '"'
  | '\\' => some '\\'
  | '/' => some '/'
  | 'b' => some '\x08'
  | 'f' => some '\x0c'
  | 'n' => some '\n'
  | 'r' => some '\r'
  | 't' => some '\t'
  | _ => none

/-- Reads up to the closing quote, with the elements `before` (the last one first) already read. -/
def readFrom? : (before : List Element) → Text → Option (List Element × Text)
  | before, '"' :: t => some (before.reverse, t)
  | before, '\\' :: 'u' :: a :: b :: c :: d :: t =>
    match hex4? a b c d with
    | some n => readFrom? (.codeUnit n :: before) t
    | none => none
  | before, '\\' :: c :: t =>
    match escaped? c with
    | some e => readFrom? (.char e :: before) t
    | none => none
  | _, ['\\'] => none
  | before, c :: t => if c < ' ' then none else readFrom? (.char c :: before) t
  | _, [] => none

def isHigh (n : Nat) : Bool := 0xD800 ≤ n && n < 0xDC00

def isLow (n : Nat) : Bool := 0xDC00 ≤ n && n < 0xE000

def pairChar (high low : Nat) : Char :=
  Char.ofNat (0x10000 + (high - 0xD800) * 0x400 + (low - 0xDC00))

/-- The characters of the elements, with the characters `before` (the last one first) already
found. A surrogate without its partner is no character. -/
def charsFrom? : (before : Text) → List Element → Option Text
  | before, [] => some before.reverse
  | before, .char c :: es => charsFrom? (c :: before) es
  | before, .codeUnit h :: .codeUnit l :: es =>
    if isHigh h && isLow l then charsFrom? (pairChar h l :: before) es
    else if isHigh h || isLow h then none
    else charsFrom? (Char.ofNat h :: before) (.codeUnit l :: es)
  | before, .codeUnit n :: es =>
    if isHigh n || isLow n then none else charsFrom? (Char.ofNat n :: before) es

/-- Reads a string after its opening quote: the text it denotes, if it denotes one, and what
follows the closing quote. -/
def read? (t : Text) : Option (Option Text × Text) :=
  (readFrom? [] t).map fun (es, rest) => (charsFrom? [] es, rest)

theorem length_readFrom? {before es : List Element} {t rest : Text}
    (h : readFrom? before t = some (es, rest)) : rest.length ≤ t.length := by
  fun_induction readFrom? before t <;> simp_all <;> omega

theorem length_read? {t rest : Text} {s : Option Text} (h : read? t = some (s, rest)) :
    rest.length ≤ t.length := by
  obtain ⟨⟨es, r⟩, hr, he⟩ := Option.map_eq_some_iff.1 h
  cases he
  exact length_readFrom? hr

/-- A digit below sixteen, in lower case. -/
def hexDigit (n : Nat) : Char := Char.ofNat (if n < 10 then 48 + n else 87 + n)

/-- The shortest way to write a character between quotes. Characters above the space need no
escape, the quote and the backslash apart. -/
def escape : Char → Text
  | '"' => ['\\', '"']
  | '\\' => ['\\', '\\']
  | '\x08' => ['\\', 'b']
  | '\x0c' => ['\\', 'f']
  | '\n' => ['\\', 'n']
  | '\r' => ['\\', 'r']
  | '\t' => ['\\', 't']
  | c =>
    if c < ' ' then ['\\', 'u', '0', '0', hexDigit (c.toNat / 16), hexDigit (c.toNat % 16)]
    else [c]

/-- Writes a string with its quotes in front of `rest`. -/
def writeOnto (t rest : Text) : Text := '"' :: t.foldr (fun c t' => escape c ++ t') ('"' :: rest)

end Eligibility.Json.Quoted

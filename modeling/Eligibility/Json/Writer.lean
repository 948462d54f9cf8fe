import Eligibility.Json.Basic
import Eligibility.Json.Quoted
import Eligibility.Text.Decimal

namespace Eligibility.Json

mutual

/-- Writes the value in front of `rest`, without white space. What is garbled is written as half a
surrogate pair. -/
def writeOnto : Json → (rest : Text) → Text
  | null, rest => 'n' :: 'u' :: 'l' :: 'l' :: rest
  | bool true, rest => 't' :: 'r' :: 'u' :: 'e' :: rest
  | bool false, rest => 'f' :: 'a' :: 'l' :: 's' :: 'e' :: rest
  | integer n, rest => Text.ofInt n ++ rest
  | decimal mantissa exponent, rest => Text.ofInt mantissa ++ 'e' :: Text.ofInt exponent ++ rest
  | string t, rest => Quoted.writeOnto t rest
  | array items, rest => '[' :: writeItemsOnto items (']' :: rest)
  | object members, rest => '\x7b' :: writeMembersOnto members ('\x7d' :: rest)
  | garbled, rest => ['"', '\\', 'u', 'd', '8', '0', '0', '"'] ++ rest

def writeItemsOnto : List Json → (rest : Text) → Text
  | [], rest => rest
  | [j], rest => j.writeOnto rest
  | j :: js, rest => j.writeOnto (',' :: writeItemsOnto js rest)

def writeMembersOnto : List (Text × Json) → (rest : Text) → Text
  | [], rest => rest
  | [m], rest => Quoted.writeOnto m.1 (':' :: m.2.writeOnto rest)
  | m :: ms, rest =>
    Quoted.writeOnto m.1 (':' :: m.2.writeOnto (',' :: writeMembersOnto ms rest))

end

/-- The shortest document of the value. -/
def write (j : Json) : Text := j.writeOnto []

end Eligibility.Json

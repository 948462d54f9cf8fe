import Eligibility.Json.Token

namespace Eligibility.Json

/-- An array or object that is still open, with what it holds so far, the last first. The name in
an object is that of the value which is being read. -/
inductive Frame where
  | array (items : List Json)
  | object (members : List (Option Text × Json)) (name : Option Text)

inductive Phase where
  | value
  | firstItem
  | firstName
  | name
  | colon
  | next
  deriving DecidableEq

/-- How far a document has been read: its frames, the innermost first, or its value. -/
inductive Progress where
  | reading (phase : Phase) (frames : List Frame)
  | finished (j : Json)

namespace Progress

/-- A string that denotes no text is garbled. -/
def ofString (t : Option Text) : Json := t.elim garbled string

/-- The member with its name, if the name denotes a text. -/
def named? : Option Text × Json → Option (Text × Json)
  | (some name, j) => some (name, j)
  | (none, _) => none

/-- An object with a name that denotes no text is garbled. -/
def ofMembers (members : List (Option Text × Json)) : Json :=
  (members.mapM named?).elim garbled object

def settle (j : Json) : List Frame → Progress
  | [] => finished j
  | .array items :: frames => reading .next (.array (j :: items) :: frames)
  | .object members name :: frames => reading .next (.object ((name, j) :: members) name :: frames)

def begin? (frames : List Frame) : Token → Option Progress
  | .openArray => some (reading .firstItem (.array [] :: frames))
  | .openObject => some (reading .firstName (.object [] none :: frames))
  | .string t => some (settle (ofString t) frames)
  | .scalar j => some (settle j frames)
  | _ => none

def step? : Progress → Token → Option Progress
  | reading .value frames, tok => begin? frames tok
  | reading .firstItem (.array _ :: frames), .closeArray => some (settle (array []) frames)
  | reading .firstItem frames, tok => begin? frames tok
  | reading .firstName (.object _ _ :: frames), .closeObject => some (settle (object []) frames)
  | reading .firstName (.object members _ :: frames), .string t
  | reading .name (.object members _ :: frames), .string t =>
    some (reading .colon (.object members t :: frames))
  | reading .colon frames, .colon => some (reading .value frames)
  | reading .next (.array items :: frames), .comma =>
    some (reading .value (.array items :: frames))
  | reading .next (.object members name :: frames), .comma =>
    some (reading .name (.object members name :: frames))
  | reading .next (.array items :: frames), .closeArray =>
    some (settle (array items.reverse) frames)
  | reading .next (.object members _ :: frames), .closeObject =>
    some (settle (ofMembers members.reverse) frames)
  | _, _ => none

/-- Goes on to the end of the tokens, which has to be the end of the value. -/
def finish? : Progress → List Token → Option Json
  | finished j, [] => some j
  | reading _ _, [] => none
  | p, tok :: toks =>
    match p.step? tok with
    | some p' => finish? p' toks
    | none => none

end Progress

/-- The value of a document, white space around it allowed. -/
def read? (t : Text) : Option Json :=
  (Token.readAll? t).bind (Progress.reading .value []).finish?

end Eligibility.Json

import Advisor.Json.Value

namespace Advisor.Json

/-- What no number of its format can be is written as null. -/
def Number.text : Number → String
  | .whole n => toString n
  | .double x => (Advisor.Number.text? x).getD "null"
  | .single x =>
      if x.exceeds .single then "null" else (Advisor.Number.shortest .single x).text x.negative

def hexDigit (n : Nat) : Char :=
  (Nat.toDigits 16 n).getLastD '0'

/-- A quote, a backslash and the control characters below the space are escaped; nothing else is. -/
def escape (c : Char) : List Char :=
  match c with
  | '"' => ['\\', '"']
  | '\\' => ['\\', '\\']
  | '\n' => ['\\', 'n']
  | '\r' => ['\\', 'r']
  | '\t' => ['\\', 't']
  | '\x08' => ['\\', 'b']
  | '\x0c' => ['\\', 'f']
  | c =>
      if c.toNat < 0x20 then ['\\', 'u', '0', '0', hexDigit (c.toNat / 16), hexDigit (c.toNat % 16)]
      else [c]

def quote (s : String) : String :=
  .ofList ('"' :: s.toList.flatMap escape ++ ['"'])

mutual

def compact : Json → String
  | null => "null"
  | bool b => if b then "true" else "false"
  | num n => n.text
  | str s => quote s
  | arr items => "[" ++ ",".intercalate (compactItems items) ++ "]"
  | obj members => "\x7b" ++ ",".intercalate (compactMembers members) ++ "\x7d"

def compactItems : List Json → List String
  | [] => []
  | v :: vs => compact v :: compactItems vs

def compactMembers : List (String × Json) → List String
  | [] => []
  | (k, v) :: ms => (quote k ++ ":" ++ compact v) :: compactMembers ms

end

/-- The parts on lines of their own between the brackets, two spaces deeper than `margin`. -/
def block (opening closing margin : String) (parts : List String) : String :=
  if parts.isEmpty then opening ++ closing
  else
    opening ++ "\n" ++ ",\n".intercalate (parts.map fun p => margin ++ "  " ++ p) ++ "\n" ++ margin ++
      closing

mutual

def prettyAt (margin : String) : Json → String
  | arr items => block "[" "]" margin (prettyItems (margin ++ "  ") items)
  | obj members => block "\x7b" "\x7d" margin (prettyMembers (margin ++ "  ") members)
  | null => "null"
  | bool b => if b then "true" else "false"
  | num n => n.text
  | str s => quote s

def prettyItems (margin : String) : List Json → List String
  | [] => []
  | v :: vs => prettyAt margin v :: prettyItems margin vs

def prettyMembers (margin : String) : List (String × Json) → List String
  | [] => []
  | (k, v) :: ms => (quote k ++ ": " ++ prettyAt margin v) :: prettyMembers margin ms

end

def pretty : Json → String :=
  prettyAt ""

end Advisor.Json

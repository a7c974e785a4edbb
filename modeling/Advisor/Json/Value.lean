import Advisor.Number.Shortest

namespace Advisor

/-- Whole numbers that were written whole stay apart from doubles. A single is a 32-bit number, written
with the digits that its own format needs. -/
inductive Json.Number
  | whole (n : Int)
  | double (x : Float)
  | single (x : Number.Binary)
  deriving DecidableEq

inductive Json
  | null
  | bool (b : Bool)
  | num (n : Json.Number)
  | str (s : String)
  | arr (items : List Json)
  | obj (members : List (String × Json))
  deriving Inhabited

namespace Json

/-- Members in the order of their keys, no key twice. -/
abbrev Fields := List (String × Json)

namespace Fields

def insert (key : String) (value : Json) : Fields → Fields
  | [] => [(key, value)]
  | (k, v) :: rest =>
      if key < k then (key, value) :: (k, v) :: rest
      else if key = k then (key, value) :: rest
      else (k, v) :: insert key value rest

def get? (fields : List (String × Json)) (key : String) : Option Json :=
  fields.lookup key

end Fields

def get? : Json → String → Option Json
  | obj members, key => Fields.get? members key
  | _, _ => none

def str? : Json → Option String
  | str s => some s
  | _ => none

def arr? : Json → Option (List Json)
  | arr items => some items
  | _ => none

def isObj : Json → Bool
  | obj _ => true
  | _ => false

def ofNat (n : Nat) : Json := num (.whole n)

def ofFloat (x : Float) : Json := num (.double x)

def ofOption (f : α → Json) : Option α → Json
  | some a => f a
  | none => null

end Json

end Advisor

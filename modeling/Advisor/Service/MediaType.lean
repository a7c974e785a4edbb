import Advisor.Text.Runes

namespace Advisor.Service

/-! Media types of bodies: a type and a subtype, perhaps with a suffix after a plus sign, and
parameters. -/

structure MediaType where
  type : String
  subtype : String
  suffix : Option String
  deriving DecidableEq, Repr

namespace MediaType

def isTokenChar (c : Char) : Bool :=
  c.isAlphanum || "!#$%&'*+-.^_\x60|~".toList.contains c

/-- What may stand between the quotes of a parameter; a quote only as the first character. -/
def isQuotedChar (c : Char) : Bool :=
  0x20 ≤ c.toNat && c.toNat < 0x7F

def afterQuoted? (cs : List Char) : Option (List Char) :=
  match cs.dropWhile (· == ' ') with
  | [] => some []
  | ';' :: rest => some rest
  | _ => none

def afterValue? (cs : List Char) : Option (List Char) :=
  match cs with
  | '"' :: first :: inside =>
      if isQuotedChar first then
        match inside.dropWhile fun c => isQuotedChar c && c != '"' with
        | '"' :: rest => afterQuoted? rest
        | _ => none
      else none
  | cs =>
      match cs.dropWhile isTokenChar with
      | [] => some []
      | ';' :: rest => if cs.head? = some ';' then none else some rest
      | _ => none

def areParameters : Nat → List Char → Bool
  | 0, cs => cs.isEmpty
  | fuel + 1, cs =>
      match cs.dropWhile (· == ' ') with
      | [] => true
      | cs =>
          match cs.dropWhile isTokenChar with
          | '=' :: value =>
              cs.head? != some '=' &&
                match afterValue? value with
                | some rest => areParameters fuel rest
                | none => false
          | _ => false

/-- The subtype, and what stands after its last plus sign. A plus sign at its front belongs to it. -/
def splitSuffix (cs : List Char) : List Char × Option (List Char) :=
  let suffix := (cs.reverse.takeWhile (· != '+')).reverse
  let front := cs.take (cs.length - suffix.length - 1)
  if suffix.length = cs.length || front.isEmpty then (cs, none) else (front, some suffix)

def parse? (text : String) : Option MediaType := do
  let cs := text.toList.map Char.toLower
  let type := cs.takeWhile isTokenChar
  match cs.drop type.length with
  | '/' :: cs =>
      let subtype := cs.takeWhile isTokenChar
      guard (!type.isEmpty)
      let parameters ← match cs.drop subtype.length with
        | [] => some []
        | ';' :: rest => if subtype.isEmpty then none else some rest
        | _ => none
      guard (areParameters parameters.length parameters)
      let (subtype, suffix) := splitSuffix subtype
      return ⟨.ofList type, .ofList subtype, suffix.map .ofList⟩
  | _ => none

def isJson (m : MediaType) : Bool :=
  m.type == "application" && (m.subtype == "json" || m.suffix == some "json")

end MediaType

end Advisor.Service

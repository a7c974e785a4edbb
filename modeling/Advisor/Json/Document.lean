import Advisor.Json.Value

namespace Advisor.Json

/-- JSON text as it was written, up to where it breaks. Members keep their order and may repeat a key.
A string is `none` when an escaped surrogate in it stands alone, a number when it is too large for a
double. A container that is not closed broke after the part it holds. -/
inductive Document
  | null
  | bool (b : Bool)
  | num (n : Option Number)
  | str (s : Option String)
  | arr (items : List Document) (closed : Bool)
  | obj (members : List (Option String × Document)) (closed : Bool)
  | broken
  deriving Inhabited

namespace Document

abbrev Reading := Document × Option (List Char)

def isSpace (c : Char) : Bool :=
  c == ' ' || c == '\t' || c == '\n' || c == '\r'

def skipSpace (cs : List Char) : List Char :=
  cs.dropWhile isSpace

inductive Piece
  | char (c : Char)
  | unit (n : Nat)

def hexValue? (c : Char) : Option Nat :=
  if '0' ≤ c ∧ c ≤ '9' then some (c.toNat - 48)
  else if 'a' ≤ c ∧ c ≤ 'f' then some (c.toNat - 87)
  else if 'A' ≤ c ∧ c ≤ 'F' then some (c.toNat - 55)
  else none

def hexUnit? (a b c d : Char) : Option Nat := do
  return ((← hexValue? a) * 16 + (← hexValue? b)) * 256 + (← hexValue? c) * 16 + (← hexValue? d)

def simpleEscape? : Char → Option Char
  | '"' => some '"'
  | '\\' => some '\\'
  | '/' => some '/'
  | 'b' => some '\x08'
  | 'f' => some '\x0c'
  | 'n' => some '\n'
  | 'r' => some '\r'
  | 't' => some '\t'
  | _ => none

def scanString (done : List Piece) : List Char → Option (List Piece × List Char)
  | [] => none
  | '"' :: cs => some (done.reverse, cs)
  | '\\' :: 'u' :: a :: b :: c :: d :: cs =>
      match hexUnit? a b c d with
      | some n => scanString (.unit n :: done) cs
      | none => none
  | '\\' :: e :: cs =>
      match simpleEscape? e with
      | some c => scanString (.char c :: done) cs
      | none => none
  | c :: cs => if c.toNat < 0x20 || c == '\\' then none else scanString (.char c :: done) cs

/-- Escaped surrogates stand for a character in pairs only. -/
def joinPieces : List Piece → Option (List Char)
  | [] => some []
  | .char c :: ps => (joinPieces ps).map (c :: ·)
  | .unit n :: ps =>
      if 0xDC00 ≤ n ∧ n ≤ 0xDFFF then none
      else if 0xD800 ≤ n ∧ n ≤ 0xDBFF then
        match ps with
        | .unit m :: ps =>
            if 0xDC00 ≤ m ∧ m ≤ 0xDFFF then
              (joinPieces ps).map (Char.ofNat (0x10000 + (n - 0xD800) * 0x400 + (m - 0xDC00)) :: ·)
            else none
        | _ => none
      else (joinPieces ps).map (Char.ofNat n :: ·)

structure Literal where
  negative : Bool
  whole : List Nat
  fraction : Option (List Nat)
  power : Option (Bool × List Nat)

def digit (c : Char) : Nat := c.toNat - 48

def digits (cs : List Char) : List Nat × List Char :=
  ((cs.takeWhile Char.isDigit).map digit, cs.dropWhile Char.isDigit)

def scanNumber (cs : List Char) : Option (Literal × List Char) := do
  let (negative, cs) := match cs with
    | '-' :: cs => (true, cs)
    | cs => (false, cs)
  let (whole, cs) := digits cs
  guard (!whole.isEmpty && (whole.length == 1 || whole.head? != some 0))
  let (fraction, cs) ← match cs with
    | '.' :: cs =>
        let (ds, cs) := digits cs
        if ds.isEmpty then none else some (some ds, cs)
    | cs => some (none, cs)
  let isMark (c : Char) := c == 'e' || c == 'E'
  let (power, cs) ← match cs with
    | c :: cs =>
        if isMark c then
          let (minus, cs) := match cs with
            | '-' :: cs => (true, cs)
            | '+' :: cs => (false, cs)
            | cs => (false, cs)
          let (ds, cs) := digits cs
          if ds.isEmpty then none else some (some (minus, ds), cs)
        else some (none, c :: cs)
    | [] => some (none, [])
  return (⟨negative, whole, fraction, power⟩, cs)

def significand (start : Nat) : List Nat → Nat × Nat
  | [] => (start, 0)
  | d :: ds => if start * 10 + d < 18446744073709551616 then significand (start * 10 + d) ds else (start, ds.length + 1)

/-- One multiplication or division by a power of ten brings a significand to its place; a place beyond
the table is reached in steps of `10 ^ 308`. `none` past the largest double. -/
def scale : Nat → Float → Int → Option Float
  | 0, x, _ => some x
  | fuel + 1, x, power =>
      let step := Float.ofScientific 1 false power.natAbs
      if power.natAbs ≤ 308 then
        if 0 ≤ power then
          let y := x * step
          if y.isInf then none else some y
        else some (x / step)
      else if x == 0 then some x
      else if 0 ≤ power then none
      else scale fuel (x / Float.ofScientific 1 false 308) (power + 308)

def natOfDigits (ds : List Nat) : Nat :=
  ds.foldl (fun n d => n * 10 + d) 0

/-- Digits beyond 64 bits only move the place. An exponent beyond 31 bits makes zero, or no number. -/
def Literal.number? (l : Literal) : Option Number :=
  let (whole, dropped) := significand 0 l.whole
  let signed (x : Float) : Number := .double (if l.negative then -x else x)
  match l.fraction, l.power with
  | none, none =>
      if dropped = 0 then
        if !l.negative then some (.whole whole)
        else if 0 < whole ∧ whole ≤ 9223372036854775808 then some (.whole (-whole))
        else some (.double (-(UInt64.ofNat whole).toFloat))
      else (scale 4 (UInt64.ofNat whole).toFloat dropped).map signed
  | fraction, power =>
      let places := fraction.getD []
      let (all, unread) := significand whole places
      let place : Int := dropped - (places.length - unread : Nat)
      let shift := power.map fun (minus, ds) => (minus, natOfDigits ds)
      match shift with
      | some (minus, n) =>
          if 2147483648 ≤ n then
            if all ≠ 0 ∧ !minus then none else some (signed 0)
          else (scale 4 (UInt64.ofNat all).toFloat (if minus then place - n else place + n)).map signed
      | none => (scale 4 (UInt64.ofNat all).toFloat place).map signed

mutual

def value : Nat → List Char → Reading
  | 0, _ => (.broken, none)
  | fuel + 1, cs =>
      match skipSpace cs with
      | 'n' :: 'u' :: 'l' :: 'l' :: cs => (.null, some cs)
      | 't' :: 'r' :: 'u' :: 'e' :: cs => (.bool true, some cs)
      | 'f' :: 'a' :: 'l' :: 's' :: 'e' :: cs => (.bool false, some cs)
      | '"' :: cs =>
          match scanString [] cs with
          | some (ps, cs) => (.str ((joinPieces ps).map .ofList), some cs)
          | none => (.broken, none)
      | '[' :: cs =>
          match skipSpace cs with
          | ']' :: cs => (.arr [] true, some cs)
          | cs =>
              let (items, rest) := elements fuel cs
              (.arr items rest.isSome, rest)
      | '\x7b' :: cs =>
          match skipSpace cs with
          | '\x7d' :: cs => (.obj [] true, some cs)
          | cs =>
              let (members, rest) := entries fuel cs
              (.obj members rest.isSome, rest)
      | cs =>
          match scanNumber cs with
          | some (l, cs) => (.num l.number?, some cs)
          | none => (.broken, none)

def elements : Nat → List Char → List Document × Option (List Char)
  | 0, _ => ([], none)
  | fuel + 1, cs =>
      match value fuel cs with
      | (item, none) => ([item], none)
      | (item, some cs) =>
          match skipSpace cs with
          | ']' :: cs => ([item], some cs)
          | ',' :: cs =>
              let (items, rest) := elements fuel cs
              (item :: items, rest)
          | _ => ([item], none)

def entries : Nat → List Char → List (Option String × Document) × Option (List Char)
  | 0, _ => ([], none)
  | fuel + 1, cs =>
      match skipSpace cs with
      | '"' :: cs =>
          match scanString [] cs with
          | none => ([], none)
          | some (ps, cs) =>
              let key := (joinPieces ps).map String.ofList
              match skipSpace cs with
              | ':' :: cs =>
                  match value fuel cs with
                  | (item, none) => ([(key, item)], none)
                  | (item, some cs) =>
                      match skipSpace cs with
                      | '\x7d' :: cs => ([(key, item)], some cs)
                      | ',' :: cs =>
                          let (members, rest) := entries fuel cs
                          ((key, item) :: members, rest)
                      | _ => ([(key, item)], none)
              | _ => ([(key, .broken)], none)
      | _ => ([], none)

end

/-- The first document of a text and what follows it. Every step of the reader takes a character, so the
text's length bounds its depth. -/
def read (cs : List Char) : Reading :=
  value (2 * cs.length + 2) cs

mutual

def isWhole : Document → Bool
  | broken => false
  | arr items closed => allWhole items && closed
  | obj members closed => membersWhole members && closed
  | _ => true

def allWhole : List Document → Bool
  | [] => true
  | d :: ds => isWhole d && allWhole ds

def membersWhole : List (Option String × Document) → Bool
  | [] => true
  | (_, d) :: ds => isWhole d && membersWhole ds

end

mutual

def ofJson : Json → Document
  | .null => .null
  | .bool b => .bool b
  | .num n => .num (some n)
  | .str s => .str (some s)
  | .arr items => .arr (ofItems items) true
  | .obj members => .obj (ofMembers members) true

def ofItems : List Json → List Document
  | [] => []
  | v :: vs => ofJson v :: ofItems vs

def ofMembers : List (String × Json) → List (Option String × Document)
  | [] => []
  | (k, v) :: ms => (some k, ofJson v) :: ofMembers ms

end

end Document

end Advisor.Json

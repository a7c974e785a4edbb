import Advisor.Text.Runes
import Advisor.Text.Utf8

namespace Advisor.Remote

/-! Where on a server a request goes: the path and the query of an address. -/

structure Target where
  path : String
  query : List (String × String)
  deriving DecidableEq, Repr

namespace Target

def hexDigit (n : Nat) : Char :=
  ((Nat.toDigits 16 n).getLastD '0').toUpper

def percent (b : UInt8) : List Char :=
  ['%', hexDigit (b.toNat / 16), hexDigit (b.toNat % 16)]

def needsEscape (c : Char) : Bool :=
  c.toNat ≤ 0x20 || 0x7F ≤ c.toNat || "\"#<>?\x60\x7b\x7d".toList.contains c

def escape (cs : List Char) : List Char :=
  cs.flatMap fun c =>
    if needsEscape c then (String.singleton c).toUTF8.toList.flatMap percent else [c]

def dots : List Char → Option Nat
  | [] => some 0
  | '.' :: cs => (dots cs).map (· + 1)
  | '%' :: '2' :: 'e' :: cs | '%' :: '2' :: 'E' :: cs => (dots cs).map (· + 1)
  | _ => none

def isDrive : List Char → Bool
  | [c, mark] => c.isAlpha && (mark == ':' || mark == '|')
  | _ => false

/-- One level up, though never out of a drive. -/
def parent (done : List (List Char)) : List (List Char) :=
  if done.getLast?.any isDrive then done else done.dropLast

def resolve (done : List (List Char)) : List (List Char) → List (List Char)
  | [] => done
  | segment :: rest =>
      let last := if rest.isEmpty then [[]] else []
      match dots segment with
      | some 1 => resolve (done ++ last) rest
      | some 2 => resolve (parent done ++ last) rest
      | _ => resolve (done ++ [segment]) rest

def pathOf (cs : List Char) : String :=
  let segments := (cs.splitOnP fun c => c == '/' || c == '\\').map escape
  .ofList ('/' :: ['/'].intercalate (resolve [] segments))

def hexValue? (c : Char) : Option Nat :=
  if c.isDigit then some (c.toNat - 48)
  else if 'a' ≤ c ∧ c ≤ 'f' then some (c.toNat - 87)
  else if 'A' ≤ c ∧ c ≤ 'F' then some (c.toNat - 55)
  else none

/-- The bytes of a query's name or value: a plus sign is a space, and escapes are undone. -/
def unescape : List UInt8 → List UInt8
  | [] => []
  | 0x2B :: rest => 0x20 :: unescape rest
  | [b] => [b]
  | [b, c] => b :: unescape [c]
  | b :: c :: d :: rest =>
      if b = 0x25 then
        match hexValue? (Char.ofNat c.toNat), hexValue? (Char.ofNat d.toNat) with
        | some x, some y => UInt8.ofNat (x * 16 + y) :: unescape rest
        | _, _ => b :: unescape (c :: d :: rest)
      else b :: unescape (c :: d :: rest)

def unescapeText (cs : List Char) : String :=
  Text.Utf8.decode (unescape (String.ofList cs).toUTF8.toList)

def pairsOf (cs : List Char) : List (String × String) :=
  ((cs.splitOnP (· == '&')).filter (!·.isEmpty)).map fun pair =>
    let name := pair.takeWhile (· != '=')
    (unescapeText name, unescapeText (pair.drop (name.length + 1)))

def isHost (cs : List Char) : Bool :=
  match cs with
  | '[' :: _ => cs.getLast? == some ']'
  | _ => !cs.isEmpty && cs.all fun c => 0x20 < c.toNat && c.toNat != 0x7F && !"%<>[]^|".toList.contains c

def isPort : List Char → Bool
  | [] => true
  | ':' :: ds =>
      ds.all Char.isDigit && ds.foldl (fun n c => n * 10 + (c.toNat - 48)) 0 < 65536
  | _ => false

/-- Whether a host and perhaps a port are named. What stands before an at sign is no part of them. -/
def isAuthority (cs : List Char) : Bool :=
  let named := (cs.reverse.takeWhile (· != '@')).reverse
  let host := match named with
    | '[' :: _ => named.takeWhile (· != ']') ++ [']']
    | _ => named.takeWhile (· != ':')
  isHost host && isPort (named.drop host.length)

/-- The target of an address. White space around it and line breaks in it do not count, and what follows
a number sign is not sent. -/
def ofUrl? (url : String) : Option Target := do
  let trimmed := Text.strip (fun c => c.toNat ≤ 0x20) url.toList
  let cs := trimmed.filter fun c => c != '\t' && c != '\n' && c != '\r'
  let afterScheme ← (Text.afterPrefix? "http://".toList cs).or (Text.afterPrefix? "https://".toList cs)
  let isEnd (c : Char) : Bool := c == '/' || c == '\\' || c == '?' || c == '#'
  let authority := afterScheme.takeWhile (!isEnd ·)
  guard (isAuthority authority)
  let rest := (afterScheme.drop authority.length).takeWhile (· != '#')
  let path := rest.takeWhile (· != '?')
  return ⟨pathOf (path.drop 1), pairsOf (rest.drop (path.length + 1))⟩

end Target

end Advisor.Remote

import Advisor.Text.Utf8

namespace Advisor.Text

/-! Text in the encoding that a mark at its beginning names. -/

namespace Utf16

def isLead (u : Nat) : Bool := 0xD800 ≤ u && u < 0xDC00

def isTrail (u : Nat) : Bool := 0xDC00 ≤ u && u < 0xE000

def units (big : Bool) : List UInt8 → List Nat × Bool
  | a :: b :: rest =>
      let (us, odd) := units big rest
      ((if big then a.toNat * 256 + b.toNat else b.toNat * 256 + a.toNat) :: us, odd)
  | [_] => ([], true)
  | [] => ([], false)

/-- A half without its other half gives a replacement character, and so does a byte left over, though
together at the end they give one. -/
def decodeUnits (odd : Bool) : List Nat → List Char
  | [] => if odd then [Utf8.replacement] else []
  | [u] =>
      if isLead u then [Utf8.replacement]
      else (if isTrail u then Utf8.replacement else Char.ofNat u) :: decodeUnits odd []
  | u :: v :: rest =>
      if isLead u then
        if isTrail v then
          Char.ofNat (0x10000 + (u - 0xD800) * 0x400 + (v - 0xDC00)) :: decodeUnits odd rest
        else Utf8.replacement :: decodeUnits odd (v :: rest)
      else (if isTrail u then Utf8.replacement else Char.ofNat u) :: decodeUnits odd (v :: rest)

def decode (big : Bool) (bytes : List UInt8) : String :=
  let (us, odd) := units big bytes
  .ofList (decodeUnits odd us)

end Utf16

/-- The text without its mark; without a mark it is in UTF-8. -/
def decodeMarked : List UInt8 → String
  | 0xEF :: 0xBB :: 0xBF :: rest => Utf8.decode rest
  | 0xFE :: 0xFF :: rest => Utf16.decode true rest
  | 0xFF :: 0xFE :: rest => Utf16.decode false rest
  | bytes => Utf8.decode bytes

end Advisor.Text

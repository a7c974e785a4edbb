namespace Advisor.Text.Utf8

/-- A character under way: how many more bytes it needs, its bits so far, and the range that the
next byte must lie in. -/
structure Pending where
  need : Nat
  bits : Nat
  low : UInt8
  high : UInt8

/-- What a first byte announces. The ranges leave out overlong forms, surrogates and everything past
the last code point. -/
inductive Start
  | whole (c : Char)
  | more (p : Pending)
  | invalid

def start (b : UInt8) : Start :=
  let n := b.toNat
  if n < 0x80 then .whole (Char.ofNat n)
  else if n < 0xC2 then .invalid
  else if n < 0xE0 then .more ⟨1, n - 0xC0, 0x80, 0xBF⟩
  else if n = 0xE0 then .more ⟨2, 0, 0xA0, 0xBF⟩
  else if n = 0xED then .more ⟨2, 0xD, 0x80, 0x9F⟩
  else if n < 0xF0 then .more ⟨2, n - 0xE0, 0x80, 0xBF⟩
  else if n = 0xF0 then .more ⟨3, 0, 0x90, 0xBF⟩
  else if n < 0xF4 then .more ⟨3, n - 0xF0, 0x80, 0xBF⟩
  else if n = 0xF4 then .more ⟨3, 4, 0x80, 0x8F⟩
  else .invalid

def replacement : Char := '\uFFFD'

/-- The characters of bytes, with nothing for each maximal piece that spells none. -/
def piecesFrom : Option Pending → List UInt8 → List (Option Char)
  | none, [] => []
  | some _, [] => [none]
  | none, b :: bs =>
      match start b with
      | .whole c => some c :: piecesFrom none bs
      | .more p => piecesFrom (some p) bs
      | .invalid => none :: piecesFrom none bs
  | some p, b :: bs =>
      if p.low ≤ b ∧ b ≤ p.high then
        let bits := p.bits * 64 + (b.toNat - 0x80)
        match p.need with
        | 0 | 1 => some (Char.ofNat bits) :: piecesFrom none bs
        | need + 2 => piecesFrom (some ⟨need + 1, bits, 0x80, 0xBF⟩) bs
      else
        match start b with
        | .whole c => none :: some c :: piecesFrom none bs
        | .more q => none :: piecesFrom (some q) bs
        | .invalid => none :: none :: piecesFrom none bs

def pieces (bytes : List UInt8) : List (Option Char) := piecesFrom none bytes

def decode (bytes : List UInt8) : String :=
  .ofList ((pieces bytes).map (·.getD replacement))

def decode? (bytes : List UInt8) : Option String :=
  String.fromUTF8? ⟨bytes.toArray⟩

end Advisor.Text.Utf8

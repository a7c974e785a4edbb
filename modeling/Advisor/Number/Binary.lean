namespace Advisor.Number

/-- The number `± mantissa · 2 ^ exponent`. -/
structure Binary where
  negative : Bool
  mantissa : Nat
  exponent : Int
  deriving DecidableEq, Repr

/-- A binary floating format: significant bits, the exponent of its least bit, and the exponent of the
first power of two that is too great for it. -/
structure Precision where
  bits : Nat
  least : Int
  bound : Int

def Precision.double : Precision := ⟨53, -1074, 1024⟩

def Precision.single : Precision := ⟨24, -149, 128⟩

namespace Binary

def ofFloat? (x : Float) : Option Binary :=
  let bits := x.toBits.toNat
  let fraction := bits % Nat.pow 2 52
  let scale : Nat := bits / Nat.pow 2 52 % Nat.pow 2 11
  let negative := Nat.pow 2 63 ≤ bits
  if scale = Nat.pow 2 11 - 1 then none
  else if scale = 0 then some ⟨negative, fraction, -1074⟩
  else some ⟨negative, Nat.pow 2 52 + fraction, (scale : Int) - 1075⟩

/-- `n / d` to the nearest integer, a half to the even neighbour. -/
def roundDiv (n d : Nat) : Nat :=
  let q := n / d
  let r := n % d
  if 2 * r < d then q else if d < 2 * r then q + 1 else if q % 2 = 0 then q else q + 1

def quotient (x : Binary) : Nat × Nat :=
  if 0 ≤ x.exponent then (x.mantissa * Nat.pow 2 x.exponent.toNat, 1)
  else (x.mantissa, Nat.pow 2 (-x.exponent).toNat)

/-- Rounded to a format, a half to the even neighbour. Nothing is cut off at its largest number. -/
def round (p : Precision) (x : Binary) : Binary :=
  if x.mantissa = 0 then ⟨x.negative, 0, p.least⟩
  else
    let top := x.exponent + x.mantissa.log2
    let exponent := max p.least (top + 1 - p.bits)
    let mantissa :=
      if exponent ≤ x.exponent then x.mantissa * Nat.pow 2 (x.exponent - exponent).toNat
      else roundDiv x.mantissa (Nat.pow 2 (exponent - x.exponent).toNat)
    if mantissa = Nat.pow 2 p.bits then ⟨x.negative, Nat.pow 2 (p.bits - 1), exponent + 1⟩
    else ⟨x.negative, mantissa, exponent⟩

def exceeds (p : Precision) (x : Binary) : Bool :=
  x.mantissa != 0 && p.bound ≤ x.exponent + x.mantissa.log2

def lessMagnitude (x y : Binary) : Bool :=
  x.quotient.1 * y.quotient.2 < y.quotient.1 * x.quotient.2

end Binary

end Advisor.Number

import Advisor.Number.Binary

namespace Advisor.Number

def pointed (n places : Nat) : List Char :=
  let digits := Nat.toDigits 10 n
  let padded := List.replicate (places + 1 - digits.length) '0' ++ digits
  let whole := padded.length - places
  if places = 0 then padded else padded.take whole ++ '.' :: padded.drop whole

/-- The exact value to a fixed number of places, a half to the even digit. The sign stays, also on
what rounds to zero. -/
def Binary.fixed (places : Nat) (x : Binary) : String :=
  let (n, d) := x.quotient
  let body := pointed (roundDiv (n * Nat.pow 10 places) d) places
  .ofList (if x.negative then '-' :: body else body)

def fixed (places : Nat) (x : Float) : String :=
  match Binary.ofFloat? x with
  | some b => b.fixed places
  | none => if x.isNaN then "NaN" else if x < 0 then "-inf" else "inf"

/-- A key that orders all doubles: by value, minus zero before zero, and what is not a number
before everything. -/
def orderKey (x : Float) : Int :=
  let half : Nat := Nat.pow 2 63
  if x.isNaN then -(2 * half : Nat)
  else
    let bits := x.toBits.toNat
    if bits < half then bits else -(bits - half : Nat) - 1

end Advisor.Number

import Advisor.Number.Binary

namespace Advisor.Number

/-- The number `digits · 10 ^ exponent`. -/
structure Decimal where
  digits : Nat
  exponent : Int
  deriving DecidableEq, Repr

/-- The reals that round to a binary number, on a decimal grid of step `10 ^ place`. All are counted in
one unit: the number itself in `value`, the ends of its interval in `low` and `high`, the grid's step
in `step`. The ends belong to the interval when the mantissa is even. -/
structure Interval where
  value : Nat
  low : Nat
  high : Nat
  step : Nat
  closed : Bool

/-- Below a power of two the neighbours stand half as far apart. -/
def Interval.of (p : Precision) (x : Binary) (place : Int) : Interval :=
  let atPower := x.mantissa = Nat.pow 2 (p.bits - 1) ∧ p.least < x.exponent
  let quarter := x.exponent - 2
  let unit := Nat.pow 2 quarter.toNat * Nat.pow 10 (-place).toNat
  { value := 4 * x.mantissa * unit
    low := (4 * x.mantissa - if atPower then 1 else 2) * unit
    high := (4 * x.mantissa + 2) * unit
    step := Nat.pow 2 (-quarter).toNat * Nat.pow 10 place.toNat
    closed := x.mantissa % 2 = 0 }

def Interval.holds (i : Interval) (n : Nat) : Bool :=
  let point := n * i.step
  if i.closed then i.low ≤ point && point ≤ i.high else i.low < point && point < i.high

def Interval.nearest? (i : Interval) : Option Nat :=
  let below := i.value / i.step
  let above := below + 1
  let toBelow := i.value - below * i.step
  let toAbove := above * i.step - i.value
  match 0 < below && i.holds below, i.holds above with
  | true, true =>
      some (if toBelow < toAbove ∨ (toBelow = toAbove ∧ below % 2 = 0) then below else above)
  | true, false => some below
  | false, true => some above
  | false, false => none

def firstPlace (n d : Nat) : Int :=
  if d ≤ n then (Nat.toDigits 10 (n / d)).length - 1
  else
    let t := (Nat.toDigits 10 (d / n)).length - 1
    if d ≤ n * Nat.pow 10 t then -t else -(t + 1)

def Decimal.trimZeros : Nat → Decimal → Decimal
  | 0, d => d
  | fuel + 1, d =>
      if d.digits % 10 = 0 ∧ d.digits ≠ 0 then trimZeros fuel ⟨d.digits / 10, d.exponent + 1⟩ else d

def shortestFrom (p : Precision) (x : Binary) : Nat → Int → Decimal
  | 0, _ => ⟨0, 0⟩
  | fuel + 1, place =>
      match (Interval.of p x place).nearest? with
      | some n => ⟨n, place⟩
      | none => shortestFrom p x fuel (place - 1)

/-- The fewest digits that read back as the number in its format, and the nearest of those. -/
def shortest (p : Precision) (x : Binary) : Decimal :=
  if x.mantissa = 0 then ⟨0, 0⟩
  else
    let (n, d) := x.quotient
    (shortestFrom p x 18 (firstPlace n d)).trimZeros 20

/-- Positional from `0.00001` up to below `10 ^ 16`, always with a point; else one digit before the
point and a signed exponent. -/
def Decimal.text (negative : Bool) (d : Decimal) : String :=
  let digits := Nat.toDigits 10 d.digits
  let n := digits.length
  let point : Int := n + d.exponent
  let body : List Char :=
    if d.digits = 0 then ['0', '.', '0']
    else if 0 ≤ d.exponent ∧ point ≤ 16 then
      digits ++ List.replicate d.exponent.toNat '0' ++ ['.', '0']
    else if 0 < point ∧ point ≤ 16 then
      digits.take point.toNat ++ '.' :: digits.drop point.toNat
    else if -5 < point ∧ point ≤ 0 then
      '0' :: '.' :: List.replicate (-point).toNat '0' ++ digits
    else
      let scale := point - 1
      let exponent := 'e' :: (if scale < 0 then '-' else '+') :: Nat.toDigits 10 scale.natAbs
      match digits with
      | [digit] => digit :: exponent
      | digit :: more => digit :: '.' :: more ++ exponent
      | [] => exponent
  .ofList (if negative then '-' :: body else body)

def text? (x : Float) : Option String :=
  (Binary.ofFloat? x).map fun b => (shortest .double b).text b.negative

end Advisor.Number

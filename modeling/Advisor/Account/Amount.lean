import Advisor.Number.Fixed

namespace Advisor

/-- The arithmetic that account figures are made of. Besides the comparisons by value there is a ranking
of everything, so that sorting is decided also where a value is not. -/
class Amount (ν : Type) extends Add ν, Sub ν, Mul ν, Div ν where
  ofNat : Nat → ν
  positive : ν → Bool
  atLeast : Nat → ν → Bool
  rank : ν → ν → Ordering

instance : Amount Float where
  ofNat := Float.ofNat
  positive x := x > 0
  atLeast n x := Float.ofNat n ≤ x
  rank x y := compare (Number.orderKey x) (Number.orderKey y)

def Amount.sum [Amount ν] (xs : List ν) : ν :=
  xs.foldl (· + ·) (ofNat 0)

end Advisor

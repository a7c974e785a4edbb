import Advisor.Number.Fixed
import Mathlib.Algebra.Group.Nat.Defs

/-!
The total order of doubles, and the key that is sorted by.
-/

namespace Advisor.Number

def signed (x : Float) : Bool := 2 ^ 63 ≤ x.toBits.toNat

def unsignedBits (x : Float) : Nat := x.toBits.toNat % 2 ^ 63

/-- Doubles by their sign, and by the bits after it: great ones last where it is not set, first where it is,
so that minus zero comes before zero. What is not a number has its sign set and comes before everything. -/
def totalOrder (x y : Float) : Ordering :=
  match x.isNaN, y.isNaN with
  | true, true => .eq
  | true, false => .lt
  | false, true => .gt
  | false, false =>
      match signed x, signed y with
      | true, false => .lt
      | false, true => .gt
      | false, false => compare (unsignedBits x) (unsignedBits y)
      | true, true => compare (unsignedBits y) (unsignedBits x)

theorem compare_congr {a b : Int} {m n : Nat} (hlt : a < b ↔ m < n) (heq : a = b ↔ m = n) :
    compare a b = compare m n := by
  simp only [compare, compareOfLessAndEq, hlt, heq]

theorem compare_orderKey (x y : Float) : compare (orderKey x) (orderKey y) = totalOrder x y := by
  have hx := x.toBits.toNat_lt
  have hy := y.toBits.toNat_lt
  have hhalf : Nat.pow 2 63 = 2 ^ 63 := rfl
  unfold orderKey totalOrder signed unsignedBits
  generalize x.toBits.toNat = m at hx ⊢
  generalize y.toBits.toNat = n at hy ⊢
  simp only [hhalf]
  cases x.isNaN <;> cases y.isNaN <;> simp only [if_true, Bool.false_eq_true, if_false]
  · by_cases hm : m < 2 ^ 63 <;> by_cases hn : n < 2 ^ 63
    all_goals simp only [hm, hn, if_true, if_false, decide_true, decide_false, not_true,
      not_false_eq_true, ← Nat.not_lt]
    · exact compare_congr (by omega) (by omega)
    · exact Int.compare_eq_gt.2 (by omega)
    · exact Int.compare_eq_lt.2 (by omega)
    · exact compare_congr (by omega) (by omega)
  · exact Int.compare_eq_gt.2 (by split <;> omega)
  · exact Int.compare_eq_lt.2 (by split <;> omega)
  · exact Int.compare_eq_eq.2 rfl

end Advisor.Number

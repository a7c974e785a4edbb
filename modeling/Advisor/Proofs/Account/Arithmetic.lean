import Advisor.Account.Figures
import Mathlib.Algebra.Field.Basic
import Mathlib.Algebra.Order.Ring.Defs

/-!
Arithmetics that figures may be made in: one that does not round, and one in which a division by zero
shows in all that is made of it. Figures divide by positive amounts only, so that both give the same.
-/

namespace Advisor

section Exact

variable {K : Type} [Field K] [LinearOrder K]

/-- An amount, or what comes of a division by zero. -/
inductive Checked (K : Type)
  | value (x : K)
  | fault

namespace Checked

def lift₂ (f : K → K → K) : Checked K → Checked K → Checked K
  | value x, value y => value (f x y)
  | _, _ => fault

def divide : Checked K → Checked K → Checked K
  | value x, value y => if y = 0 then fault else value (x / y)
  | _, _ => fault

def holds (p : K → Bool) : Checked K → Bool
  | value x => p x
  | fault => false

def rank : Checked K → Checked K → Ordering
  | value x, value y => compare x y
  | value _, fault => .gt
  | fault, value _ => .lt
  | fault, fault => .eq

instance : Amount (Checked K) where
  add := lift₂ (· + ·)
  sub := lift₂ (· - ·)
  mul := lift₂ (· * ·)
  div := divide
  ofNat n := value n
  positive := holds fun x => decide (0 < x)
  atLeast n := holds fun x => decide ((n : K) ≤ x)
  rank := rank

end Checked

/-- Arithmetic without rounding. -/
instance (priority := low) Amount.exact : Amount K where
  ofNat n := n
  positive x := decide (0 < x)
  atLeast n x := decide ((n : K) ≤ x)
  rank := compare

end Exact

/-- Amounts of the one arithmetic are taken to those of another by which everything is computed alike, but
perhaps for divisions by what is not positive. -/
structure Amount.Carries [Amount ν] [Amount μ] (f : ν → μ) : Prop where
  add : ∀ a b, f (a + b) = f a + f b
  sub : ∀ a b, f (a - b) = f a - f b
  mul : ∀ a b, f (a * b) = f a * f b
  div : ∀ a b, Amount.positive b = true → f (a / b) = f a / f b
  ofNat : ∀ n, f (Amount.ofNat n) = Amount.ofNat n
  positive : ∀ a, Amount.positive (f a) = Amount.positive a
  atLeast : ∀ n a, Amount.atLeast n (f a) = Amount.atLeast n a
  rank : ∀ a b, Amount.rank (f a) (f b) = Amount.rank a b

theorem Checked.carries {K : Type} [Field K] [LinearOrder K] : Amount.Carries (Checked.value (K := K)) where
  add _ _ := rfl
  sub _ _ := rfl
  mul _ _ := rfl
  div a b hb := by
    have hne : b ≠ 0 := (of_decide_eq_true hb).ne'
    exact (if_neg hne).symm
  ofNat _ := rfl
  positive _ := rfl
  atLeast _ _ := rfl
  rank _ _ := rfl

namespace Account

section Maps

variable (f : ν → μ)

def Transaction.map (t : Transaction ν) : Transaction μ :=
  { t with price := f t.price, quantity := f t.quantity }

def Turnover.map (e : Turnover ν) : Turnover μ :=
  { e with turnover := f e.turnover }

def Flow.map (x : Flow ν) : Flow μ where
  windowDays := x.windowDays
  tradeCount := x.tradeCount
  buyNotional := f x.buyNotional
  sellNotional := f x.sellNotional
  netFlow := f x.netFlow
  topItems := x.topItems.map (Turnover.map f)

def Risk.map (r : Risk ν) : Risk μ where
  distinctItems := r.distinctItems
  topItemSharePct := f r.topItemSharePct
  sellBuyRatio := r.sellBuyRatio.map f
  level := r.level

theorem inWindow_map (now : Timestamp) (ts : List (Transaction ν)) :
    inWindow now (ts.map (Transaction.map f)) = (inWindow now ts).map (Transaction.map f) :=
  List.filter_map ..

end Maps

theorem topShare_cons [Amount ν] (top : Turnover ν) (rest : List (Turnover ν)) :
    topShare (top :: rest) =
      if Amount.positive (Amount.sum ((top :: rest).map (·.turnover))) then
        top.turnover / Amount.sum ((top :: rest).map (·.turnover)) * Amount.ofNat 100
      else Amount.ofNat 0 := rfl

end Account

namespace Amount.Carries

open Account

variable [Amount ν] [Amount μ] {f : ν → μ} (hf : Amount.Carries f)
include hf

theorem sum (xs : List ν) : f (Amount.sum xs) = Amount.sum (xs.map f) := by
  have hfoldl (a : ν) : f (xs.foldl (· + ·) a) = (xs.map f).foldl (· + ·) (f a) := by
    induction xs generalizing a with
    | nil => rfl
    | cons x xs ih => rw [List.foldl_cons, ih, hf.add, List.map_cons, List.foldl_cons]
  rw [Amount.sum, hfoldl, hf.ofNat, Amount.sum]

theorem sum_notional (ts : List (Transaction ν)) :
    Amount.sum ((ts.map (Transaction.map f)).map Transaction.notional) =
      f (Amount.sum (ts.map Transaction.notional)) := by
  rw [hf.sum, List.map_map, List.map_map]
  refine congrArg Amount.sum (List.map_congr_left fun t _ => ?_)
  exact (hf.mul t.price t.quantity).symm

theorem turnoverOf (ts : List (Transaction ν)) (item : String) :
    Account.turnoverOf (ts.map (Transaction.map f)) item = (Account.turnoverOf ts item).map f := by
  have hown : (ts.map (Transaction.map f)).filter (·.item == item) =
      (ts.filter (·.item == item)).map (Transaction.map f) := List.filter_map ..
  rw [Account.turnoverOf, hown, hf.sum_notional, List.length_map]
  rfl

theorem before (a b : Turnover ν) : (a.map f).before (b.map f) = a.before b := by
  simp only [Turnover.before, Turnover.map, hf.rank]

theorem turnovers (ts : List (Transaction ν)) :
    Account.turnovers (ts.map (Transaction.map f)) = (Account.turnovers ts).map (Turnover.map f) := by
  have hitems : (ts.map (Transaction.map f)).map (·.item) = ts.map (·.item) := List.map_map
  rw [Account.turnovers, hitems, Account.turnovers,
    List.map_mergeSort (s := Turnover.before) fun a _ b _ => (hf.before a b).symm, List.map_map]
  refine congrArg (List.mergeSort · Turnover.before) (List.map_congr_left fun item _ => ?_)
  exact hf.turnoverOf ts item

theorem flow (ts : List (Transaction ν)) (now : Timestamp) :
    Account.flow (ts.map (Transaction.map f)) now = (Account.flow ts now).map f := by
  have hside (side : Side) (own : List (Transaction ν)) :
      Amount.sum (((own.map (Transaction.map f)).filter (·.side == side)).map Transaction.notional) =
        f (Amount.sum ((own.filter (·.side == side)).map Transaction.notional)) := by
    rw [← hf.sum_notional, List.filter_map]
    rfl
  simp only [Account.flow, inWindow_map, hside, hf.turnovers, Flow.map, hf.sub, List.length_map,
    List.map_take]

theorem topShare (items : List (Turnover ν)) :
    Account.topShare (items.map (Turnover.map f)) = f (Account.topShare items) := by
  have htotal : Amount.sum ((items.map (Turnover.map f)).map (·.turnover)) =
      f (Amount.sum (items.map (·.turnover))) := by
    rw [hf.sum, List.map_map, List.map_map]
    rfl
  cases items with
  | nil => exact (hf.ofNat 0).symm
  | cons top rest =>
      rw [List.map_cons, topShare_cons, topShare_cons, ← List.map_cons, htotal, hf.positive]
      split
      · rename_i hpositive
        rw [hf.mul, hf.div _ _ hpositive, hf.ofNat]
        rfl
      · exact (hf.ofNat 0).symm

theorem riskLevel (items : Nat) (share : ν) :
    Account.riskLevel items (f share) = Account.riskLevel items share := by
  simp only [Account.riskLevel, hf.atLeast]

theorem risk (ts : List (Transaction ν)) (now : Timestamp) :
    Account.risk (ts.map (Transaction.map f)) now = (Account.risk ts now).map f := by
  have hratio : (if Amount.positive (f (Account.flow ts now).buyNotional) then
      some (f (Account.flow ts now).sellNotional / f (Account.flow ts now).buyNotional) else none) =
      (if Amount.positive (Account.flow ts now).buyNotional then
        some ((Account.flow ts now).sellNotional / (Account.flow ts now).buyNotional)
      else none).map f := by
    rw [hf.positive]
    split
    · rename_i hpositive
      rw [Option.map_some, hf.div _ _ hpositive]
    · rfl
  simp only [Account.risk, inWindow_map, hf.turnovers, hf.topShare, hf.flow, Flow.map, hratio,
    List.length_map, hf.riskLevel, Risk.map]

end Amount.Carries

end Advisor

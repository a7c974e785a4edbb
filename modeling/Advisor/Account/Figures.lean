import Advisor.Account.Ledger

namespace Advisor.Account

/-! What a ledger comes to. A model only ever sees these figures, never the ledger. -/

structure OrderFigures (ν : Type) where
  buyCount : Nat
  sellCount : Nat
  openNotional : ν
  deriving DecidableEq

structure Turnover (ν : Type) where
  item : String
  turnover : ν
  trades : Nat
  deriving DecidableEq

structure Flow (ν : Type) where
  windowDays : Int
  tradeCount : Nat
  buyNotional : ν
  sellNotional : ν
  netFlow : ν
  topItems : List (Turnover ν)
  deriving DecidableEq

inductive RiskLevel
  | low
  | medium
  | high
  deriving DecidableEq, Repr, Inhabited

def RiskLevel.name : RiskLevel → String
  | low => "low"
  | medium => "medium"
  | high => "high"

def RiskLevel.ofName? : String → Option RiskLevel
  | "low" => some low
  | "medium" => some medium
  | "high" => some high
  | _ => none

structure Risk (ν : Type) where
  distinctItems : Nat
  topItemSharePct : ν
  sellBuyRatio : Option ν
  level : RiskLevel
  deriving DecidableEq

variable [Amount ν]

def orderFigures (orders : List (Order ν)) : OrderFigures ν where
  buyCount := orders.countP (·.side == .buy)
  sellCount := orders.countP (·.side == .sell)
  openNotional := Amount.sum (orders.map Order.notional)

/-- Of transactions with one id, the first stays. -/
def dedupe (seen : List String) : List (Transaction ν) → List (Transaction ν)
  | [] => []
  | t :: ts => if seen.contains t.id then dedupe seen ts else t :: dedupe (t.id :: seen) ts

def windowDays : Int := 30

def topItems : Nat := 5

/-- The transactions of the trailing window, both its ends included. -/
def inWindow (now : Timestamp) (ts : List (Transaction ν)) : List (Transaction ν) :=
  ts.filter fun t => now.minusDays windowDays ≤ t.timestamp ∧ t.timestamp ≤ now

def turnoverOf (ts : List (Transaction ν)) (item : String) : Turnover ν :=
  let own := ts.filter (·.item == item)
  ⟨item, Amount.sum (own.map Transaction.notional), own.length⟩

def Turnover.before (a b : Turnover ν) : Bool :=
  ((Amount.rank b.turnover a.turnover).then
    ((compare b.trades a.trades).then (compare a.item b.item))).isLE

def turnovers (ts : List (Transaction ν)) : List (Turnover ν) :=
  ((ts.map (·.item)).eraseDups.map (turnoverOf ts)).mergeSort Turnover.before

def flow (ts : List (Transaction ν)) (now : Timestamp) : Flow ν :=
  let own := inWindow now ts
  let notional (side : Side) := Amount.sum ((own.filter (·.side == side)).map Transaction.notional)
  let bought := notional .buy
  let sold := notional .sell
  { windowDays := windowDays
    tradeCount := own.length
    buyNotional := bought
    sellNotional := sold
    netFlow := sold - bought
    topItems := (turnovers own).take topItems }

/-- The share of the greatest turnover in the total; zero where there is no total. -/
def topShare (items : List (Turnover ν)) : ν :=
  let total := Amount.sum (items.map (·.turnover))
  match items with
  | top :: _ =>
      if Amount.positive total then top.turnover / total * Amount.ofNat 100 else Amount.ofNat 0
  | [] => Amount.ofNat 0

def riskLevel (items : Nat) (share : ν) : RiskLevel :=
  if items = 0 then .low
  else if Amount.atLeast 60 share || items ≤ 2 then .high
  else if Amount.atLeast 35 share then .medium
  else .low

def risk (ts : List (Transaction ν)) (now : Timestamp) : Risk ν :=
  let items := turnovers (inWindow now ts)
  let share := topShare items
  let f := flow ts now
  { distinctItems := items.length
    topItemSharePct := share
    sellBuyRatio := if Amount.positive f.buyNotional then some (f.sellNotional / f.buyNotional) else none
    level := riskLevel items.length share }

end Advisor.Account

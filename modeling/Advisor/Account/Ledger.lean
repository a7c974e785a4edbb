import Advisor.Account.Amount
import Advisor.Json.Decoder
import Advisor.Timestamp

namespace Advisor.Account

inductive Side
  | buy
  | sell
  deriving DecidableEq, Repr, Inhabited

def Side.name : Side → String
  | buy => "buy"
  | sell => "sell"

def Side.ofName? : String → Option Side
  | "buy" => some buy
  | "sell" => some sell
  | _ => none

structure Wallet where
  amount : Float
  currency : String
  deriving DecidableEq

structure Order (ν : Type) where
  item : String
  side : Side
  price : ν
  quantity : ν

structure Transaction (ν : Type) where
  id : String
  item : String
  side : Side
  price : ν
  quantity : ν
  timestamp : Timestamp

def Order.notional [Amount ν] (o : Order ν) : ν := o.price * o.quantity

def Transaction.notional [Amount ν] (t : Transaction ν) : ν := t.price * t.quantity

open Json.Decoder

def Wallet.toJson (w : Wallet) : Json :=
  .obj [("amount", .ofFloat w.amount), ("currency", .str w.currency)]

def Wallet.decoder : Json.Decoder Wallet :=
  record
    [ field "amount" double fun v w => { w with amount := v },
      field "currency" string fun v w => { w with currency := v }]
    ⟨0, ""⟩

def Order.toJson (o : Order Float) : Json :=
  .obj [
    ("item", .str o.item), ("side", .str o.side.name), ("price", .ofFloat o.price),
    ("quantity", .ofFloat o.quantity)]

/-- A quantity that is not given is one. -/
def Order.decoder : Json.Decoder (Order Float) :=
  record
    [ field "item" string fun v o => { o with item := v },
      field "side" (named Side.ofName?) fun v o => { o with side := v },
      field "price" double fun v o => { o with price := v },
      defaulted "quantity" double fun v o => { o with quantity := v }]
    ⟨"", .buy, 0, 1⟩

def instant : Json.Decoder Timestamp := fun room d => do
  match Timestamp.parse? (← string room d) with
  | some t => return t
  | none => throw .mistyped

def Transaction.toJson (t : Transaction Float) : Json :=
  .obj [
    ("id", .str t.id), ("item", .str t.item), ("side", .str t.side.name),
    ("price", .ofFloat t.price), ("quantity", .ofFloat t.quantity),
    ("timestamp", .str t.timestamp.text)]

def Transaction.decoder : Json.Decoder (Transaction Float) :=
  record
    [ field "id" string fun v t => { t with id := v },
      field "item" string fun v t => { t with item := v },
      field "side" (named Side.ofName?) fun v t => { t with side := v },
      field "price" double fun v t => { t with price := v },
      defaulted "quantity" double fun v t => { t with quantity := v },
      field "timestamp" instant fun v t => { t with timestamp := v }]
    ⟨"", "", .buy, 0, 1, ⟨0, 0⟩⟩

end Advisor.Account

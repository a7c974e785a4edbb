import Advisor.Account.Figures

namespace Advisor.Account

/-- What a turn may know of the user's account. Only the service fills it in. -/
structure View where
  available : Bool
  accountId : Option String
  wallet : Option Wallet
  orders : Option (OrderFigures Float)
  flow : Option (Flow Float)
  risk : Option (Risk Float)
  notes : List String
  deriving DecidableEq

namespace View

def empty : View := ⟨false, none, none, none, none, none, []⟩

instance : Inhabited View := ⟨empty⟩

def unavailable (note : String) : View := { empty with notes := [note] }

end View

def OrderFigures.toJson (o : OrderFigures Float) : Json :=
  .obj [
    ("buy_count", .ofNat o.buyCount), ("sell_count", .ofNat o.sellCount),
    ("open_notional", .ofFloat o.openNotional)]

def Turnover.toJson (t : Turnover Float) : Json :=
  .obj [("item", .str t.item), ("turnover", .ofFloat t.turnover), ("trades", .ofNat t.trades)]

def Flow.toJson (f : Flow Float) : Json :=
  .obj [
    ("window_days", .num (.whole f.windowDays)), ("trade_count", .ofNat f.tradeCount),
    ("buy_notional", .ofFloat f.buyNotional), ("sell_notional", .ofFloat f.sellNotional),
    ("net_flow", .ofFloat f.netFlow), ("top_items", .arr (f.topItems.map Turnover.toJson))]

def member? (key : String) (f : α → Json) : Option α → List (String × Json)
  | some a => [(key, f a)]
  | none => []

def Risk.toJson (r : Risk Float) : Json :=
  .obj ([("distinct_items", Json.ofNat r.distinctItems),
      ("top_item_share_pct", .ofFloat r.topItemSharePct)] ++
    member? "sell_buy_ratio" Json.ofFloat r.sellBuyRatio ++ [("level", .str r.level.name)])

def View.toJson (v : View) : Json :=
  .obj ([("available", .bool v.available)] ++ member? "account_id" Json.str v.accountId ++
    member? "wallet" Wallet.toJson v.wallet ++ member? "orders" OrderFigures.toJson v.orders ++
    member? "trade_flow" Flow.toJson v.flow ++ member? "risk" Risk.toJson v.risk ++
    if v.notes.isEmpty then [] else [("notes", .arr (v.notes.map .str))])

open Json.Decoder

def OrderFigures.decoder : Json.Decoder (OrderFigures Float) :=
  record
    [ field "buy_count" natural fun v o => { o with buyCount := v },
      field "sell_count" natural fun v o => { o with sellCount := v },
      field "open_notional" double fun v o => { o with openNotional := v }]
    ⟨0, 0, 0⟩

def Turnover.decoder : Json.Decoder (Turnover Float) :=
  record
    [ field "item" string fun v t => { t with item := v },
      field "turnover" double fun v t => { t with turnover := v },
      field "trades" natural fun v t => { t with trades := v }]
    ⟨"", 0, 0⟩

def Flow.decoder : Json.Decoder (Flow Float) :=
  record
    [ field "window_days" signed fun v f => { f with windowDays := v },
      field "trade_count" natural fun v f => { f with tradeCount := v },
      field "buy_notional" double fun v f => { f with buyNotional := v },
      field "sell_notional" double fun v f => { f with sellNotional := v },
      field "net_flow" double fun v f => { f with netFlow := v },
      field "top_items" (list Turnover.decoder) fun v f => { f with topItems := v }]
    ⟨0, 0, 0, 0, 0, []⟩

def Risk.decoder : Json.Decoder (Risk Float) :=
  record
    [ field "distinct_items" natural fun v r => { r with distinctItems := v },
      field "top_item_share_pct" double fun v r => { r with topItemSharePct := v },
      omissible "sell_buy_ratio" double fun v r => { r with sellBuyRatio := v },
      field "level" (named RiskLevel.ofName?) fun v r => { r with level := v }]
    ⟨0, 0, none, .low⟩

def View.decoder : Json.Decoder View :=
  record
    [ field "available" bool fun v w => { w with available := v },
      omissible "account_id" string fun v w => { w with accountId := v },
      omissible "wallet" Wallet.decoder fun v w => { w with wallet := v },
      omissible "orders" OrderFigures.decoder fun v w => { w with orders := v },
      omissible "trade_flow" Flow.decoder fun v w => { w with flow := v },
      omissible "risk" Risk.decoder fun v w => { w with risk := v },
      defaulted "notes" (list string) fun v w => { w with notes := v }]
    .empty

end Advisor.Account

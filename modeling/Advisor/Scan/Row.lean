import Advisor.Json.Decoder
import Advisor.Number.Fixed
import Advisor.Text.Runes

namespace Advisor.Scan

/-- One result of a scan. Members that the scan engine adds on its own are kept beside the known ones. -/
structure Row where
  name : String
  buyPrice : Option Float
  sellPrice : Option Float
  profit : Float
  profitPct : Option Float
  score : Option Float
  volume : Option Float
  risk : Option String
  extreme : Bool
  extra : Json.Fields
  deriving Inhabited

structure Summary where
  visibleRows : Nat
  totalRows : Nat
  extra : Json.Fields
  deriving Inhabited

namespace Row

def isActionable (row : Row) : Bool :=
  row.profit > 0

def isRisky (row : Row) : Bool :=
  match Text.lower (Text.trim (row.risk.getD "")) with
  | "high" | "critical" | "risky" => true
  | _ => false

def maxTop : Nat := 3

/-- Greater profit first, then greater score; no score counts as zero. -/
def before (a b : Row) : Bool :=
  let key (x : Option Float) := Number.orderKey (x.getD 0)
  ((compare (Number.orderKey b.profit) (Number.orderKey a.profit)).then
    (compare (key b.score) (key a.score))).isLE

def top (rows : List Row) : List Row :=
  ((rows.filter isActionable).mergeSort before).take maxTop

open Json.Decoder

def toJson (row : Row) : Json :=
  let number := Json.ofOption Json.ofFloat
  .obj ([
    ("name", Json.str row.name), ("buy_price", number row.buyPrice),
    ("sell_price", number row.sellPrice), ("profit", .ofFloat row.profit),
    ("profit_pct", number row.profitPct), ("score", number row.score),
    ("volume", number row.volume), ("risk", .ofOption .str row.risk),
    ("extreme", .bool row.extreme)] ++ row.extra)

def decoder : Json.Decoder Row :=
  openRecord
    [ defaulted "name" string fun v r => { r with name := v },
      defaulted "buy_price" (option double) fun v r => { r with buyPrice := v },
      defaulted "sell_price" (option double) fun v r => { r with sellPrice := v },
      defaulted "profit" double fun v r => { r with profit := v },
      defaulted "profit_pct" (option double) fun v r => { r with profitPct := v },
      defaulted "score" (option double) fun v r => { r with score := v },
      defaulted "volume" (option double) fun v r => { r with volume := v },
      defaulted "risk" (option string) fun v r => { r with risk := v },
      defaulted "extreme" bool fun v r => { r with extreme := v }]
    (fun key v r => { r with extra := r.extra.insert key v })
    ⟨"", none, none, 0, none, none, none, none, false, []⟩

end Row

namespace Summary

open Json.Decoder

def toJson (s : Summary) : Json :=
  .obj ([("visible_rows", Json.ofNat s.visibleRows), ("total_rows", .ofNat s.totalRows)] ++ s.extra)

def decoder : Json.Decoder Summary :=
  openRecord
    [ defaulted "visible_rows" natural fun v s => { s with visibleRows := v },
      defaulted "total_rows" natural fun v s => { s with totalRows := v }]
    (fun key v s => { s with extra := s.extra.insert key v })
    ⟨0, 0, []⟩

end Summary

end Advisor.Scan

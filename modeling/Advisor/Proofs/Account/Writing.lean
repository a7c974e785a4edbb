import Advisor.Account.View
import Advisor.Proofs.Json.Faithful

/-!
The written form of a view of the account is that of no other view.
-/

namespace Advisor.Account

theorem RiskLevel.name_injective : Function.Injective RiskLevel.name := by
  intro a b h
  cases a <;> cases b <;> first | rfl | exact absurd h (by decide)

theorem Wallet.toJson_injective : Function.Injective Wallet.toJson := by
  rintro ⟨⟩ ⟨⟩ h
  simpa only [toJson, Json.obj.injEq, List.cons.injEq, Prod.mk.injEq, Json.str.injEq,
    Json.ofFloat_injective.eq_iff, true_and, and_true, Wallet.mk.injEq] using h

theorem OrderFigures.toJson_injective : Function.Injective OrderFigures.toJson := by
  rintro ⟨⟩ ⟨⟩ h
  simpa only [toJson, Json.obj.injEq, List.cons.injEq, Prod.mk.injEq, Json.ofNat_injective.eq_iff,
    Json.ofFloat_injective.eq_iff, true_and, and_true, OrderFigures.mk.injEq] using h

theorem Turnover.toJson_injective : Function.Injective Turnover.toJson := by
  rintro ⟨⟩ ⟨⟩ h
  simpa only [toJson, Json.obj.injEq, List.cons.injEq, Prod.mk.injEq, Json.str.injEq,
    Json.ofNat_injective.eq_iff, Json.ofFloat_injective.eq_iff, true_and, and_true,
    Turnover.mk.injEq] using h

theorem Flow.toJson_injective : Function.Injective Flow.toJson := by
  rintro ⟨⟩ ⟨⟩ h
  simpa only [toJson, Json.obj.injEq, List.cons.injEq, Prod.mk.injEq, Json.num.injEq,
    Json.Number.whole.injEq, Json.arr.injEq, Json.ofNat_injective.eq_iff, Json.ofFloat_injective.eq_iff,
    Turnover.toJson_injective.list_map.eq_iff, true_and, and_true, Flow.mk.injEq] using h

section Members

theorem lookup_cons_ite (key k : String) (value : Json) (rest : List (String × Json)) :
    ((k, value) :: rest).lookup key = if key = k then some value else rest.lookup key := by
  by_cases h : key = k
  · rw [h, List.lookup_cons_self, if_pos rfl]
  · rw [List.lookup_cons, beq_eq_false_iff_ne.2 h, if_neg h]

/-- A member that may be left out is read back under its key, whatever else is under other keys. -/
theorem lookup_member?_append (key k : String) (f : α → Json) (o : Option α)
    (rest : List (String × Json)) :
    (member? k f o ++ rest).lookup key =
      if key = k then (o.map f).or (rest.lookup key) else rest.lookup key := by
  cases o <;> simp [member?, lookup_cons_ite]

theorem lookup_notes (key : String) (notes : List String) :
    (if notes = [] then [] else [("notes", Json.arr (notes.map Json.str))]).lookup key =
      if key = "notes" ∧ notes ≠ [] then some (.arr (notes.map Json.str)) else none := by
  by_cases hnotes : notes = [] <;> simp [hnotes, lookup_cons_ite]

end Members

theorem Risk.get?_toJson (r : Risk Float) (key : String) : r.toJson.get? key = match key with
    | "distinct_items" => some (.ofNat r.distinctItems)
    | "top_item_share_pct" => some (.ofFloat r.topItemSharePct)
    | "sell_buy_ratio" => r.sellBuyRatio.map Json.ofFloat
    | "level" => some (.str r.level.name)
    | _ => none := by
  split <;> simp_all [toJson, Json.get?, Json.Fields.get?, lookup_cons_ite, lookup_member?_append]

theorem Risk.toJson_injective : Function.Injective Risk.toJson := by
  intro r s h
  have hget (key : String) : r.toJson.get? key = s.toJson.get? key := by rw [h]
  have hitems := hget "distinct_items"
  have hshare := hget "top_item_share_pct"
  have hratio := hget "sell_buy_ratio"
  have hlevel := hget "level"
  cases r
  cases s
  simp only [get?_toJson, Option.some.injEq, Json.str.injEq, Json.ofNat_injective.eq_iff,
    Json.ofFloat_injective.eq_iff, RiskLevel.name_injective.eq_iff,
    (Option.map_injective Json.ofFloat_injective).eq_iff] at hitems hshare hratio hlevel
  rw [hitems, hshare, hratio, hlevel]

theorem View.get?_toJson (v : View) (key : String) : v.toJson.get? key = match key with
    | "available" => some (.bool v.available)
    | "account_id" => v.accountId.map Json.str
    | "wallet" => v.wallet.map Wallet.toJson
    | "orders" => v.orders.map OrderFigures.toJson
    | "trade_flow" => v.flow.map Flow.toJson
    | "risk" => v.risk.map Risk.toJson
    | "notes" => if v.notes = [] then none else some (.arr (v.notes.map Json.str))
    | _ => none := by
  split <;> simp_all [toJson, Json.get?, Json.Fields.get?, lookup_cons_ite, lookup_member?_append, lookup_notes]

theorem View.toJson_injective : Function.Injective View.toJson := by
  intro v w h
  have hget (key : String) : v.toJson.get? key = w.toJson.get? key := by rw [h]
  have havailable : v.available = w.available := by
    simpa only [get?_toJson, Option.some.injEq, Json.bool.injEq] using hget "available"
  have haccount : v.accountId = w.accountId :=
    Option.map_injective Json.str_injective (by simpa only [get?_toJson] using hget "account_id")
  have hwallet : v.wallet = w.wallet :=
    Option.map_injective Wallet.toJson_injective (by simpa only [get?_toJson] using hget "wallet")
  have horders : v.orders = w.orders :=
    Option.map_injective OrderFigures.toJson_injective (by simpa only [get?_toJson] using hget "orders")
  have hflow : v.flow = w.flow :=
    Option.map_injective Flow.toJson_injective (by simpa only [get?_toJson] using hget "trade_flow")
  have hrisk : v.risk = w.risk :=
    Option.map_injective Risk.toJson_injective (by simpa only [get?_toJson] using hget "risk")
  have hnotes : v.notes = w.notes := by
    have hread := hget "notes"
    simp only [get?_toJson] at hread
    split at hread <;> split at hread <;> simp_all [Json.str_injective.list_map.eq_iff]
  cases v
  cases w
  simp_all

end Advisor.Account

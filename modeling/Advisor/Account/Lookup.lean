import Advisor.Account.View
import Advisor.Dialogue.Basic
import Advisor.Locale

namespace Advisor.Account

/-! The account as the service sees it now. The wallet, the orders and the transactions are asked for
together, and each may fail without the others. -/

inductive Part
  | wallet (result : Except Failure Wallet)
  | orders (result : Except Failure (List (Order Float)))
  | transactions (result : Except Failure (List (Transaction Float)))

namespace View

def noted (v : View) (note : String) : View :=
  { v with notes := v.notes ++ [note] }

def absorb (locale : Locale) (now : Timestamp) (v : View) : Part → View
  | .wallet (.ok w) => { v with wallet := some w }
  | .wallet (.error _) =>
      v.noted (locale.pick "Wallet balance unavailable." "Баланс кошелька недоступен.")
  | .orders (.ok orders) => { v with orders := some (orderFigures orders) }
  | .orders (.error _) =>
      v.noted (locale.pick "Active orders unavailable." "Активные ордера недоступны.")
  | .transactions (.ok ts) => { v with flow := some (Account.flow ts now), risk := some (Account.risk ts now) }
  | .transactions (.error _) =>
      v.noted (locale.pick "Transaction history unavailable." "История транзакций недоступна.")

def judged (v : View) : View :=
  { v with available := v.wallet.isSome || v.orders.isSome || v.flow.isSome }

end View

/-- The transactions of an account: those that are remembered, or else the ones asked for, which are
remembered when they arrive. -/
def transactions (accountId token : String) : Dialogue (Lapse × Bool × Part) := do
  match ← Dialogue.remembered (.transactions accountId) with
  | some ts => return (.zero, false, .transactions (.ok ts))
  | none =>
      let arrival ← Dialogue.put (.transactions accountId token)
      return (arrival.lapse, true, .transactions (arrival.result.map (dedupe [])))

def takePart (accountId : String) (locale : Locale) (v : View) : Bool × Part → Dialogue View
  | (fetched, part) => do
      match fetched, part with
      | true, .transactions (.ok ts) => Dialogue.remember (.transactions accountId) ts
      | _, _ => pure ()
      return v.absorb locale (← Dialogue.clock) part

def consult (accountId token : String) (locale : Locale) : Dialogue View := do
  let wallet ← Dialogue.put (.wallet accountId token)
  let orders ← Dialogue.put (.orders accountId token)
  let ts ← transactions accountId token
  let parts := Dialogue.inArrivalOrder
    [(wallet.lapse, false, .wallet wallet.result), (orders.lapse, false, .orders orders.result), ts]
  let (_, v) ← Dialogue.takeEach (takePart accountId locale) 0
    { View.empty with accountId := some accountId } parts
  return v.judged

def lookup (locale : Locale) : Dialogue View := do
  match ← Dialogue.await .session with
  | .ok none =>
      return .unavailable (locale.pick
        "No connected marketplace account."
        "Аккаунт маркетплейса не подключён.")
  | .error _ =>
      return .unavailable (locale.pick
        "Account session could not be resolved."
        "Не удалось определить сессию аккаунта.")
  | .ok (some session) =>
      match ← Dialogue.await (.accessToken session) with
      | .ok token => consult session.accountId token locale
      | .error _ =>
          return {
            View.unavailable (locale.pick
              "Account authorization expired; reconnect the account."
              "Авторизация аккаунта истекла; переподключите аккаунт.") with
            accountId := some session.accountId }

end Advisor.Account

import Advisor.Account.Ledger
import Advisor.Config
import Advisor.Failure
import Advisor.Remote.Exchange

namespace Advisor.Remote.Account

/-! Account data behind a web service. -/

open Advisor.Account

def request? (baseUrl path accountId token : String) : Option Request :=
  Request.get? (Config.withoutEndSlashes baseUrl ++ path) [("account", accountId)] (some token)

def value (path : String) (e : Exchange) : Except Failure Json := do
  match e.head with
  | .error _ => throw (.account ("request failed for " ++ path ++ ": broken off"))
  | .ok (status, body, ending) =>
      match Exchange.textOf body ending with
      | .error _ => throw (.account ("failed to read " ++ path ++ ": broken off"))
      | .ok text =>
          if Exchange.isSuccess status then
            match Json.parse? text with
            | some v => return v
            | none => throw (.account ("invalid JSON from " ++ path ++ ": malformed"))
          else
            throw (.account
              ("account API returned " ++ statusText status ++ " for " ++ path ++ ": " ++ clipBody text))

def decoded (decoder : Json.Decoder α) (name : String) (v : Json) : Except Failure α :=
  match Json.Decoder.ofJson decoder v with
  | .ok a => .ok a
  | .error _ => .error (.account ("unexpected " ++ name ++ " payload: mistyped"))

/-- The list under a key of an object, or the value itself. An object without the key has an empty
list. -/
def listing (key : String) : Json → Json
  | .obj members => (Json.Fields.get? members key).getD (.arr [])
  | v => v

def wallet (e : Exchange) : Except Failure Wallet := do
  decoded Wallet.decoder "wallet" (← value "/wallet" e)

def orders (e : Exchange) : Except Failure (List (Order Float)) := do
  decoded (Json.Decoder.list Order.decoder) "orders" (listing "orders" (← value "/orders" e))

def transactions (e : Exchange) : Except Failure (List (Transaction Float)) := do
  decoded (Json.Decoder.list Transaction.decoder) "transactions"
    (listing "transactions" (← value "/transactions" e))

end Advisor.Remote.Account

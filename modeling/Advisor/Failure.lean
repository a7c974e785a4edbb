import Advisor.Text.Runes

namespace Advisor

inductive Failure
  | validation (why : String)
  | provider (why : String)
  | providerStatus (status : Nat) (body : String)
  | planner (why : String)
  | documentation (why : String)
  | webSearch (why : String)
  | account (why : String)
  | session (why : String)
  | timeout (seconds : Nat)
  | cancelled
  | serialization (why : String)
  | io (why : String)
  deriving DecidableEq, Repr, Inhabited

namespace Failure

def message : Failure → String
  | validation why => "Invalid request: " ++ why
  | provider why => "Provider error: " ++ why
  | providerStatus status body => "Provider returned " ++ toString status ++ ": " ++ body
  | planner why => "Planner error: " ++ why
  | documentation why => "Documentation error: " ++ why
  | webSearch why => "Web search error: " ++ why
  | account why => "Account data error: " ++ why
  | session why => "Session error: " ++ why
  | timeout seconds => "Timed out after " ++ toString seconds ++ "s"
  | cancelled => "Client disconnected"
  | serialization why => "Serialization error: " ++ why
  | io why => "IO error: " ++ why

def isUpstream : Failure → Bool
  | validation _ | cancelled => false
  | _ => true

/-- Milliseconds are dropped from the time that a limit names. -/
def timedOut (limitMs : Nat) : Failure :=
  timeout (limitMs / 1000)

end Failure

def clipBody (body : String) : String :=
  let limit := 300
  let t := Text.trim body
  if Text.runeCount t ≤ limit then t else (Text.truncate t limit).push '…'

end Advisor

import Advisor.Failure

namespace Advisor.Account

structure Session where
  accountId : String
  refreshToken : String
  deriving DecidableEq, Repr, Inhabited

namespace Session

/-- The session of a deployment that serves one account: it needs both the account and its token. -/
def fixed? (accountId accessToken : Option String) : Option Session :=
  match accountId, accessToken with
  | some id, some token => some ⟨id, token⟩
  | _, _ => none

def fixedToken (s : Session) : Except Failure String :=
  if (Text.trim s.refreshToken).isEmpty then .error (.session "empty access token")
  else .ok s.refreshToken

end Session

def notConfigured : Failure := .account "account API not configured"

end Advisor.Account

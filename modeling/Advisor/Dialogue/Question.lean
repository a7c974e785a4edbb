import Advisor.Account.Ledger
import Advisor.Account.Session
import Advisor.Completion.Call
import Advisor.Intent
import Advisor.Knowledge.Web

namespace Advisor

/-- What happens outside until something arrives: time passes, and the client may go away. -/
structure Lapse where
  ms : Nat
  clientLeaves : Bool
  deriving DecidableEq, Repr, Inhabited

def Lapse.zero : Lapse := ⟨0, false⟩

def Lapse.after (l : Lapse) (elapsed : Nat) : Lapse :=
  { l with ms := l.ms - elapsed }

structure Arrival (α : Type) where
  lapse : Lapse
  result : Except Failure α

namespace Arrival

/-- An answer that would come too late is a failure at the limit. -/
def limited (limitMs : Nat) (a : Arrival α) : Arrival α :=
  if a.lapse.ms ≤ limitMs then a else ⟨⟨limitMs, false⟩, .error (.timedOut limitMs)⟩

def now (result : Except Failure α) : Arrival α :=
  ⟨.zero, result⟩

end Arrival

inductive Stream.Signal
  | line (text : String)
  | fault (why : Failure)
  | pause (lapse : Lapse)

inductive Question
  | completion (call : Call)
  | stream (call : Call)
  | session
  | accessToken (session : Account.Session)
  | wallet (accountId token : String)
  | orders (accountId token : String)
  | transactions (accountId token : String)
  | index (repo : String) (locale : Locale) (query : String) (intent : Intent) (k : Nat)
  | page (repo slug : String)
  | overview
  | search (query : String) (locale : Locale)

/-- A stream is answered with all that its reader will meet. -/
abbrev Question.Answer : Question → Type
  | completion _ => Reply
  | stream _ => List Stream.Signal
  | session => Option Account.Session
  | accessToken _ => String
  | wallet _ _ => Account.Wallet
  | orders _ _ => List (Account.Order Float)
  | transactions _ _ => List (Account.Transaction Float)
  | index _ _ _ _ _ => Knowledge.Outcome
  | page _ _ => String
  | overview => Option String
  | search _ _ => List Knowledge.Web.Result

end Advisor

import Advisor.Intent
import Advisor.Text.Alphanumeric
import Advisor.Text.Runes

namespace Advisor.Account

def hardTerms : List String :=
  ["wallet", "balance", "portfolio", "ledger", "transaction", "кошел", "баланс", "портфел",
    "транзакц"]

/-- Terms that mean the account only when the user says that it is theirs. -/
def softTerms : List String :=
  ["order", "history", "risk", "formula", "trades", "ордер", "заявк", "истори", "риск", "формул",
    "сделк"]

def possessiveWords : List String :=
  ["my", "mine", "our", "мой", "моя", "мои", "моё", "мое", "моих", "моей", "мою", "наш", "наши",
    "наших"]

def isPossessive (text : String) : Bool :=
  Text.contains text "у меня" ||
    ((text.toList.splitOnP (!Text.isAlphanumeric ·)).map String.ofList).any possessiveWords.contains

def concerns (intent : Intent) (message : String) : Bool :=
  match intent with
  | .smalltalk | .productHelp => false
  | _ =>
      let text := Text.normalize message
      Text.containsAny text hardTerms || (isPossessive text && Text.containsAny text softTerms)

end Advisor.Account

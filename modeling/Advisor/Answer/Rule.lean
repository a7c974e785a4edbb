import Advisor.Diagnostic
import Advisor.Intent

namespace Advisor.Answer

/-- A check of an answer: why it is refused for an intent, if it is. -/
structure Rule where
  name : String
  refuse? : Intent → String → Option String

namespace Rule

def nonEmpty : Rule where
  name := "non_empty"
  refuse? _ answer := if (Text.trim answer).isEmpty then some "answer is empty" else none

def diagnosticLeak : Rule where
  name := "diagnostic_leak"
  refuse? _ answer :=
    if Diagnostic.leaks answer then some "answer leaks internal pipeline fields" else none

def minTradingRunes : Nat := 60

def tradingGrounding : Rule where
  name := "trading_grounding"
  refuse? intent answer :=
    let text := Text.trim answer
    if intent ≠ .tradingAnalysis then none
    else if Text.runeCount text < minTradingRunes then
      some ("trading answer shorter than " ++ toString minTradingRunes ++ " characters")
    else if !text.toList.any Char.isDigit then some "trading answer cites no figures"
    else none

def all : List Rule := [nonEmpty, diagnosticLeak, tradingGrounding]

end Rule

def refusal? (rules : List Rule) (intent : Intent) (answer : String) : Option String :=
  rules.findSome? fun rule => rule.refuse? intent answer

end Advisor.Answer

import Advisor.Intent
import Advisor.Intent.Vocabulary
import Advisor.Message

namespace Advisor.Intent

def smalltalkMaxRunes : Nat := 40

def followUpMaxRunes : Nat := 80

def followUpLookback : Nat := 4

def assistantTurns (history : List Message) : List String :=
  (history.reverse.filter (·.role == .assistant)).map (·.content)

def recentAdvice (history : List Message) : Bool :=
  ((assistantTurns history).take followUpLookback).any fun content =>
    Vocabulary.advice.occursIn (Text.lower content)

/-- The first vocabulary that matches decides. A greeting and a follow-up count in short messages only,
and a follow-up needs advice to follow. -/
def classify (message : String) (history : List Message) : Intent :=
  let text := Text.lower (Text.trim message)
  if Vocabulary.debug.occursIn text then .debugSupport
  else if Vocabulary.tradingStructured.occursIn text then .tradingAnalysis
  else if Vocabulary.productHelp.occursIn text then .productHelp
  else if Vocabulary.webResearch.occursIn text then .webResearch
  else if Vocabulary.generalTrading.occursIn text then .tradingAnalysis
  else if Text.runeCount text ≤ smalltalkMaxRunes && Vocabulary.greetings.occursIn text then .smalltalk
  else if Text.runeCount text ≤ followUpMaxRunes && Vocabulary.followUp.occursIn text &&
      recentAdvice history then .tradingAnalysis
  else .general

end Advisor.Intent

import Advisor.Text.Runes

namespace Advisor

inductive Intent
  | smalltalk
  | tradingAnalysis
  | productHelp
  | debugSupport
  | webResearch
  | general
  deriving DecidableEq, Repr, Inhabited

namespace Intent

def all : List Intent :=
  [smalltalk, tradingAnalysis, productHelp, debugSupport, webResearch, general]

def name : Intent → String
  | smalltalk => "smalltalk"
  | tradingAnalysis => "trading_analysis"
  | productHelp => "product_help"
  | debugSupport => "debug_support"
  | webResearch => "web_research"
  | general => "general"

def ofName? (s : String) : Option Intent :=
  all.find? (·.name == s)

/-- The name in any letter case, white space around it allowed. -/
def parse? (raw : String) : Option Intent :=
  ofName? (Text.lower (Text.trim raw))

end Intent

end Advisor

import Advisor.Intent
import Advisor.Json.Decoder

namespace Advisor

inductive ContextLevel
  | none
  | summary
  | full
  deriving DecidableEq, Repr, Inhabited

namespace ContextLevel

def name : ContextLevel → String
  | none => "none"
  | summary => "summary"
  | full => "full"

def ofName? : String → Option ContextLevel
  | "none" => some none
  | "summary" => some summary
  | "full" => some full
  | _ => Option.none

def parse? (raw : String) : Option ContextLevel :=
  ofName? (Text.lower (Text.trim raw))

end ContextLevel

inductive ResponseMode
  | short
  | structured
  | diagnostic
  | qa
  deriving DecidableEq, Repr, Inhabited

namespace ResponseMode

def name : ResponseMode → String
  | short => "short"
  | structured => "structured"
  | diagnostic => "diagnostic"
  | qa => "qa"

def ofName? : String → Option ResponseMode
  | "short" => some short
  | "structured" => some structured
  | "diagnostic" => some diagnostic
  | "qa" => some qa
  | _ => none

def parse? (raw : String) : Option ResponseMode :=
  ofName? (Text.lower (Text.trim raw))

end ResponseMode

inductive Agent
  | intentRouter
  | scanAnalyzer
  | riskChecker
  | wikiRetriever
  | webRetriever
  | debugHelper
  deriving DecidableEq, Repr, Inhabited

namespace Agent

def all : List Agent :=
  [intentRouter, scanAnalyzer, riskChecker, wikiRetriever, webRetriever, debugHelper]

def name : Agent → String
  | intentRouter => "intent_router"
  | scanAnalyzer => "scan_analyzer"
  | riskChecker => "risk_checker"
  | wikiRetriever => "wiki_retriever"
  | webRetriever => "web_retriever"
  | debugHelper => "debug_helper"

def ofName? (s : String) : Option Agent :=
  all.find? (·.name == s)

/-- A hyphen may stand for an underscore. -/
def parse? (raw : String) : Option Agent :=
  ofName? (Text.replaceChar '-' '_' (Text.lower (Text.trim raw)))

end Agent

structure Plan where
  intent : Intent
  contextLevel : ContextLevel
  responseMode : ResponseMode
  needWiki : Bool
  needWeb : Bool
  askClarification : Bool
  clarification : String
  agents : List Agent
  deriving DecidableEq, Repr, Inhabited

namespace Plan

open Json.Decoder

def has (plan : Plan) (agent : Agent) : Bool :=
  plan.agents.contains agent

def question? (plan : Plan) : Option String :=
  let text := Text.trim plan.clarification
  if plan.askClarification && !text.isEmpty then some text else none

def default (intent : Intent) : Plan :=
  let make level mode wiki web agents : Plan := ⟨intent, level, mode, wiki, web, false, "", agents⟩
  match intent with
  | .smalltalk => make .none .short false false [.intentRouter]
  | .tradingAnalysis => make .full .structured false false [.scanAnalyzer, .riskChecker]
  | .productHelp => make .summary .qa true false [.wikiRetriever]
  | .debugSupport => make .summary .diagnostic true false [.debugHelper, .wikiRetriever]
  | .webResearch => make .summary .qa false true [.webRetriever]
  | .general => make .summary .qa false false [.intentRouter]

/-- What holds whatever a model proposed: small talk sees and looks up nothing, and an analysis sees
the whole scan and has helpers. -/
def guarded (plan : Plan) : Plan :=
  match plan.intent with
  | .smalltalk =>
      { plan with contextLevel := .none, needWiki := false, needWeb := false, responseMode := .short }
  | .tradingAnalysis =>
      { plan with
        contextLevel := .full
        agents := if plan.agents.isEmpty then (default .tradingAnalysis).agents else plan.agents }
  | _ => plan

def toJson (plan : Plan) : Json :=
  .obj [
    ("intent", .str plan.intent.name),
    ("context_level", .str plan.contextLevel.name),
    ("response_mode", .str plan.responseMode.name),
    ("need_wiki", .bool plan.needWiki),
    ("need_web", .bool plan.needWeb),
    ("ask_clarification", .bool plan.askClarification),
    ("clarification", .str plan.clarification),
    ("agents", .arr (plan.agents.map fun a => .str a.name))]

def decoder : Json.Decoder Plan :=
  record
    [ field "intent" (named Intent.ofName?) fun v p => { p with intent := v },
      field "context_level" (named ContextLevel.ofName?) fun v p => { p with contextLevel := v },
      field "response_mode" (named ResponseMode.ofName?) fun v p => { p with responseMode := v },
      field "need_wiki" bool fun v p => { p with needWiki := v },
      field "need_web" bool fun v p => { p with needWeb := v },
      field "ask_clarification" bool fun v p => { p with askClarification := v },
      defaulted "clarification" string fun v p => { p with clarification := v },
      field "agents" (list (named Agent.ofName?)) fun v p => { p with agents := v }]
    ⟨.general, .none, .short, false, false, false, "", []⟩

end Plan

end Advisor

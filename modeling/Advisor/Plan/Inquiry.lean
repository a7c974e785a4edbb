import Advisor.Completion.Call
import Advisor.Request

namespace Advisor.Plan

/-! What a model is told when it is asked for a plan. -/

def inquiryMaxTokens : Nat := 220

def inquiryHistoryTurns : Nat := 6

def inquiryTurnRunes : Nat := 220

def instructions : String :=
  "You are the routing planner of a trading assistant.
Return ONLY one JSON object, no prose, no markdown:
\x7b
  \"intent\": \"smalltalk|trading_analysis|product_help|debug_support|web_research|general\",
  \"context_level\": \"none|summary|full\",
  \"response_mode\": \"short|structured|diagnostic|qa\",
  \"need_wiki\": false,
  \"need_web\": false,
  \"ask_clarification\": false,
  \"clarification\": \"\",
  \"agents\": [\"intent_router|scan_analyzer|risk_checker|wiki_retriever|web_retriever|debug_helper\"]
\x7d
Rules:
- Ask for clarification only when the request cannot be answered at all.
- Use \"full\" context only when individual scan rows matter.
- need_web only for fresh external information."

def summaryNote : Option Scan.Summary → String
  | some s => toString s.visibleRows ++ " visible of " ++ toString s.totalRows ++ " total rows"
  | none => "no scan summary"

def contextSummary (turn : Turn) : String :=
  let c := turn.context
  "; ".intercalate
    [ "tab " ++ c.tabId.getD "unknown" ++ ", scan " ++ c.scanId.getD "unknown",
      toString c.rows.length ++ " result rows attached",
      summaryNote c.summary,
      toString c.snapshot.length ++ " scan settings",
      toString turn.history.length ++ " prior turns" ] ++ "."

def recentTurn (m : Message) : String :=
  "- " ++ (if m.role = .user then "user" else "assistant") ++ ": " ++
    Text.truncate m.content inquiryTurnRunes ++ "\n"

def recentTurns (history : List Message) : String :=
  match History.newest inquiryHistoryTurns history with
  | [] => ""
  | recent => "\nRECENT TURNS:\n" ++ String.join (recent.map recentTurn)

def inquiry (turn : Turn) (classified : Intent) : String :=
  "USER MESSAGE:\n" ++ turn.userMessage ++ "\n\nHEURISTIC INTENT: " ++ classified.name ++ "\n" ++
    recentTurns turn.history ++ "\nCONTEXT: " ++ contextSummary turn

def inquiryCall (turn : Turn) (classified : Intent) (timeoutMs : Nat) : Call where
  provider := turn.provider
  baseUrl := turn.baseUrl
  apiKey := turn.apiKey
  model := turn.plannerModel
  messages := [⟨.system, instructions⟩, ⟨.user, inquiry turn classified⟩]
  temperature := Number.Binary.round .single ⟨false, 0, 0⟩
  maxTokens := inquiryMaxTokens
  timeoutMs := timeoutMs

end Advisor.Plan

import Advisor.Json.Printer
import Advisor.Knowledge.Snippet
import Advisor.Request
import Advisor.Text.Alphanumeric

namespace Advisor.Prompt

structure Findings where
  wiki : List Knowledge.Snippet
  web : List Knowledge.Snippet
  warnings : List String
  deriving DecidableEq, Inhabited

def Findings.isEmpty (f : Findings) : Bool :=
  f.wiki.isEmpty && f.web.isEmpty

structure Brief where
  turn : Turn
  plan : Plan
  context : Scan.Context
  preflight : Preflight
  findings : Findings
  accountWanted : Bool

section SettingsDump

def dumpPhrases : List String :=
  ["all settings", "every setting", "all parameters", "every parameter", "all filters", "full config",
    "entire config", "list settings", "все настройки", "всех настроек", "все параметры",
    "всех параметров", "все фильтры", "весь конфиг", "полный конфиг"]

def dumpQuantifiers : List String :=
  ["all", "every", "each", "full", "complete", "entire", "все", "всех", "каждый", "каждую", "каждой",
    "полный", "полностью", "весь"]

def dumpSubjects : List String :=
  ["setting", "parameter", "filter", "config", "настройк", "параметр", "фильтр", "конфиг"]

/-- Every field of the configuration is asked for: by a phrase, or by a quantifier as a whole word
together with a word for settings. -/
def wantsSettingsDump (message : String) : Bool :=
  let text := Text.normalize message
  let ws := (text.toList.splitOnP (!Text.isAlphanumeric ·)).map String.ofList
  Text.containsAny text dumpPhrases ||
    (ws.any dumpQuantifiers.contains && Text.containsAny text dumpSubjects)

end SettingsDump

section Notes

def rowNote (row : Scan.Row) : String :=
  let score := match row.score with
    | some s => ", score " ++ Number.fixed 1 s
    | none => ""
  row.name ++ " (profit " ++ Number.fixed 2 row.profit ++ score ++ ")"

def scanNote (rows : List Scan.Row) : String :=
  match Scan.Row.top rows with
  | [] => "scan_analyzer: no actionable rows in view"
  | top => "scan_analyzer: top rows " ++ "; ".intercalate (top.map rowNote)

def riskNote (rows : List Scan.Row) : String :=
  ("risk_checker: " ++ toString (rows.countP Scan.Row.isRisky) ++ " risky and " ++
    toString (rows.countP (·.extreme)) ++ " extreme rows of " ++ toString rows.length)

def accountNote (v : Account.View) : String :=
  if !v.available then "account: unavailable"
  else
    let wallet := v.wallet.map fun w => "wallet " ++ Number.fixed 2 w.amount ++ " " ++ w.currency
    let orders := v.orders.map fun o =>
      toString o.buyCount ++ " buy / " ++ toString o.sellCount ++ " sell orders, open notional " ++
        Number.fixed 2 o.openNotional
    let flow := v.flow.map fun f =>
      toString f.windowDays ++ "d net flow " ++ Number.fixed 2 f.netFlow ++ " over " ++
        toString f.tradeCount ++ " trades"
    let risk := v.risk.map fun r =>
      "portfolio risk " ++ r.level.name ++ " (top item " ++ Number.fixed 0 r.topItemSharePct ++ "%)"
    "account: " ++ ", ".intercalate ([wallet, orders, flow, risk].filterMap id)

def notes (b : Brief) : List String :=
  let line (wanted : Bool) (text : String) := if wanted then [text] else []
  let c := b.context
  line (b.plan.has .scanAnalyzer) (scanNote c.rows) ++
  line (b.plan.has .riskChecker) (riskNote c.rows) ++
  line (b.plan.has .wikiRetriever)
    ("wiki_retriever: " ++ toString b.findings.wiki.length ++ " documentation snippets") ++
  line (b.plan.has .webRetriever)
    ("web_retriever: " ++ toString b.findings.web.length ++ " web snippets") ++
  line b.accountWanted (accountNote c.account) ++
  line (b.plan.has .debugHelper)
    ("debug_helper: tab_id=" ++ c.tabId.getD "-" ++ " scan_id=" ++ c.scanId.getD "-")

end Notes

section Sources

def labelled (label value : String) : String :=
  if value.isEmpty then "" else label ++ ": " ++ value ++ "\n"

def sourceEntry (label : String) (n : Nat) (s : Knowledge.Snippet) : String :=
  "[" ++ label ++ " " ++ toString n ++ "] " ++ s.title ++ "\n" ++ labelled "page" s.page ++
    labelled "section" s.chapter ++ labelled "url" s.url ++ s.content ++ "\n\n"

def sourceEntries (label : String) (snippets : List Knowledge.Snippet) : String :=
  String.join ((snippets.zipIdx 1).map fun (s, n) => sourceEntry label n s)

def citationRule (locale : Locale) : String :=
  locale.pick
    "Cite knowledge you rely on as [WIKI n] or [WEB n]. Do not cite sources that are not listed.\n"
    "Ссылайся на использованные источники как [WIKI n] или [WEB n]. Не ссылайся на источники, которых нет в списке.\n"

def sources (f : Findings) (locale : Locale) : String :=
  "KNOWLEDGE:\n" ++ sourceEntries "WIKI" f.wiki ++ sourceEntries "WEB" f.web ++ citationRule locale

end Sources

def planLine (plan : Plan) : String :=
  "PLANNER_PLAN: intent=" ++ plan.intent.name ++ " context_level=" ++ plan.contextLevel.name ++
    " response_mode=" ++ plan.responseMode.name ++ " need_wiki=" ++ toString plan.needWiki ++
    " need_web=" ++ toString plan.needWeb ++ "\n\n"

def dumpInstruction (locale : Locale) : String :=
  locale.pick
    ("The user wants the complete configuration: enumerate every field of scan_snapshot " ++
      "with its value, one per line, without skipping any.\n\n")
    ("Пользователь хочет полную конфигурацию: перечисли каждое поле scan_snapshot " ++
      "с его значением, по одному в строке, ничего не пропуская.\n\n")

def caveatLine (caveats : List String) (locale : Locale) : String :=
  if caveats.isEmpty then ""
  else
    locale.pick "Mention these limitations briefly in the answer: "
      "Кратко упомяни эти ограничения в ответе: " ++ " ".intercalate caveats ++ "\n\n"

def noteBlock (lines : List String) : String :=
  if lines.isEmpty then ""
  else
    "INTERNAL_AGENT_NOTES (do not quote):\n" ++ String.join (lines.map fun l => "- " ++ l ++ "\n") ++ "\n"

/-- The last message to the model: the plan, the question, the scoped context as JSON, and what the
helpers add. Its labels are diagnostic markers, so an answer that repeats them is found out. -/
def user (b : Brief) : String :=
  let locale := b.turn.locale
  planLine b.plan ++ "USER MESSAGE:\n" ++ b.turn.userMessage ++ "\n\n" ++
    "SCAN CONTEXT (JSON):\n" ++ b.context.toJson.pretty ++ "\n\n" ++
    (if wantsSettingsDump b.turn.userMessage then dumpInstruction locale else "") ++
    caveatLine b.preflight.caveats locale ++ noteBlock (notes b) ++
    if b.findings.isEmpty then "" else sources b.findings locale

end Advisor.Prompt

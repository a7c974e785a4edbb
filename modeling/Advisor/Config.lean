import Advisor.Text.Runes

namespace Advisor

/-- Limits in milliseconds. -/
structure Timeouts where
  planner : Nat
  generation : Nat
  stream : Nat
  docPage : Nat
  webQuery : Nat
  deriving DecidableEq, Repr

def Timeouts.default : Timeouts := ⟨35000, 90000, 720000, 12000, 10000⟩

structure Config where
  port : Nat
  defaultProvider : String
  customBaseUrl : Option String
  assistantName : String
  wikiRepo : String
  wikiRawBase : String
  readmePath : Option String
  semanticIndexUrl : Option String
  searchUrl : Option String
  accountApiBaseUrl : Option String
  accountId : Option String
  accountAccessToken : Option String
  timeouts : Timeouts
  deriving DecidableEq, Repr

namespace Config

def default : Config where
  port := 8080
  defaultProvider := "openai"
  customBaseUrl := none
  assistantName := "Station Advisor"
  wikiRepo := "scan-station/scan-station"
  wikiRawBase := "https://raw.githubusercontent.com/wiki"
  readmePath := none
  semanticIndexUrl := none
  searchUrl := none
  accountApiBaseUrl := none
  accountId := none
  accountAccessToken := none
  timeouts := .default

def registry : List (String × String) :=
  [ ("openai", "https://api.openai.com/v1"),
    ("openrouter", "https://openrouter.ai/api/v1"),
    ("groq", "https://api.groq.com/openai/v1"),
    ("deepseek", "https://api.deepseek.com/v1")]

def withoutEndSlashes (url : String) : String :=
  .ofList (Text.dropEndWhile (· == '/') url.toList)

def baseUrl? (config : Config) (provider : String) : Option String :=
  let provider := Text.lower (Text.trim provider)
  if provider = "custom" then config.customBaseUrl.map withoutEndSlashes
  else registry.lookup provider

section Environment

/-- A natural number below `bound`, in decimal digits, a plus sign before them allowed. -/
def naturalBelow? (bound : Nat) (s : String) : Option Nat :=
  let ds := match s.toList with
    | '+' :: ds => ds
    | ds => ds
  if ds.isEmpty || !ds.all Char.isDigit then none
  else
    let n := ds.foldl (fun n c => n * 10 + (c.toNat - 48)) 0
    if n < bound then some n else none

variable (vars : String → Option String)

def setting? (key : String) : Option String :=
  ((vars key).map Text.trim).filter (!·.isEmpty)

def seconds (key : String) (fallbackMs : Nat) : Nat :=
  match (setting? vars key).bind (naturalBelow? 18446744073709551616) with
  | some n => if 0 < n then n * 1000 else fallbackMs
  | none => fallbackMs

/-- The settings that environment variables give. A port variable that is set hides the other one also
when it holds no port. -/
def ofEnvironment : Config :=
  let d := default
  let t := d.timeouts
  { port :=
      (((vars "PORT").or (vars "API_PORT")).bind
        fun v => naturalBelow? 65536 (Text.trim v)).getD d.port
    defaultProvider := (setting? vars "ADVISOR_DEFAULT_PROVIDER").getD d.defaultProvider
    customBaseUrl := setting? vars "ADVISOR_PROVIDER_BASE_URL"
    assistantName := (setting? vars "ADVISOR_ASSISTANT_NAME").getD d.assistantName
    wikiRepo := (setting? vars "ADVISOR_WIKI_REPO").getD d.wikiRepo
    wikiRawBase := (setting? vars "ADVISOR_WIKI_RAW_BASE").getD d.wikiRawBase
    readmePath := setting? vars "ADVISOR_README_PATH"
    semanticIndexUrl := setting? vars "ADVISOR_SEMANTIC_INDEX_URL"
    searchUrl := setting? vars "ADVISOR_SEARXNG_URL"
    accountApiBaseUrl := setting? vars "ACCOUNT_API_BASE_URL"
    accountId := setting? vars "ACCOUNT_ID"
    accountAccessToken := setting? vars "ACCOUNT_ACCESS_TOKEN"
    timeouts :=
      { planner := seconds vars "ADVISOR_PLANNER_TIMEOUT_SECS" t.planner
        generation := seconds vars "ADVISOR_GENERATION_TIMEOUT_SECS" t.generation
        stream := seconds vars "ADVISOR_STREAM_TIMEOUT_SECS" t.stream
        docPage := seconds vars "ADVISOR_DOC_TIMEOUT_SECS" t.docPage
        webQuery := seconds vars "ADVISOR_WEB_TIMEOUT_SECS" t.webQuery } }

end Environment

end Config

end Advisor

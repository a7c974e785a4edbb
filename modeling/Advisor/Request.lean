import Advisor.Config
import Advisor.Failure
import Advisor.History
import Advisor.Scan.Preflight

namespace Advisor

structure ChatRequest where
  provider : String
  apiKey : String
  model : String
  plannerModel : String
  temperature : Option Float
  maxTokens : Option Int
  assistantName : String
  locale : String
  userMessage : String
  enableWiki : Option Bool
  enableWeb : Option Bool
  enablePlanner : Option Bool
  wikiRepo : String
  history : List RawMessage
  context : Scan.Context

/-- A chat request with every default filled in and every bound established. -/
structure Turn where
  requestId : String
  provider : String
  baseUrl : String
  apiKey : String
  model : String
  plannerModel : String
  temperature : Number.Binary
  maxTokens : Nat
  assistantName : String
  locale : Locale
  userMessage : String
  enableWiki : Bool
  enableWeb : Bool
  enablePlanner : Bool
  wikiRepo : String
  history : List Message
  context : Scan.Context

namespace ChatRequest

def blank : ChatRequest where
  provider := ""
  apiKey := ""
  model := ""
  plannerModel := ""
  temperature := none
  maxTokens := none
  assistantName := ""
  locale := ""
  userMessage := ""
  enableWiki := none
  enableWeb := none
  enablePlanner := none
  wikiRepo := ""
  history := []
  context := .empty

section Decoding

open Json.Decoder

def decoder : Json.Decoder ChatRequest :=
  record
    [ defaulted "provider" string fun v r => { r with provider := v },
      defaulted "api_key" string fun v r => { r with apiKey := v },
      defaulted "model" string fun v r => { r with model := v },
      defaulted "planner_model" string fun v r => { r with plannerModel := v },
      defaulted "temperature" (option double) fun v r => { r with temperature := v },
      defaulted "max_tokens" (option signed)
        fun v r => { r with maxTokens := v },
      defaulted "assistant_name" string fun v r => { r with assistantName := v },
      defaulted "locale" string fun v r => { r with locale := v },
      defaulted "user_message" string fun v r => { r with userMessage := v },
      defaulted "enable_wiki" (option bool) fun v r => { r with enableWiki := v },
      defaulted "enable_web" (option bool) fun v r => { r with enableWeb := v },
      defaulted "enable_planner" (option bool) fun v r => { r with enablePlanner := v },
      defaulted "wiki_repo" string fun v r => { r with wikiRepo := v },
      defaulted "history" (list RawMessage.decoder) fun v r => { r with history := v },
      defaulted "context" Scan.Context.decoder fun v r => { r with context := v }]
    .blank

end Decoding

def maxTokensCeiling : Nat := 1000000

def defaultMaxTokens : Nat := 1400

/-- Three tenths, to 24 bits. -/
def defaultTemperature : Number.Binary := ⟨false, 10066330, -25⟩

def clampTemperature (x : Number.Binary) : Number.Binary :=
  let two : Number.Binary := ⟨false, 2, 0⟩
  if x.negative && x.mantissa != 0 then Number.Binary.round .single ⟨false, 0, 0⟩
  else Number.Binary.round .single (if two.lessMagnitude x then two else x)

def temperatureOf : Option Float → Except Failure Number.Binary
  | none => .ok defaultTemperature
  | some t =>
      match Number.Binary.ofFloat? t with
      | some x => .ok (clampTemperature x)
      | none => .error (.validation "temperature must be a number")

def maxTokensOf : Option Int → Except Failure Nat
  | none => .ok defaultMaxTokens
  | some n =>
      if n = 0 then .ok defaultMaxTokens
      else if n < 0 then .error (.validation "max_tokens must be positive")
      else .ok (min n.toNat maxTokensCeiling)

def nonEmptyOr (value fallback : String) : String :=
  let t := Text.trim value
  if t.isEmpty then fallback else t

def required (name value : String) : Except Failure String :=
  if value.isEmpty then .error (.validation (name ++ " is required")) else .ok value

/-- The turn that a request asks for, under an id; the first fault refuses it. -/
def validate (r : ChatRequest) (config : Config) (requestId : String) : Except Failure Turn := do
  let apiKey ← required "api_key" (Text.trim r.apiKey)
  let model ← required "model" (Text.trim r.model)
  let userMessage ← required "user_message"
    (Text.truncate (Text.trim r.userMessage) History.maxMessageRunes)
  let provider := Text.lower (nonEmptyOr r.provider config.defaultProvider)
  let baseUrl ← match config.baseUrl? provider with
    | some url => .ok url
    | none => .error (.validation ("unsupported provider: " ++ provider))
  let temperature ← temperatureOf r.temperature
  let maxTokens ← maxTokensOf r.maxTokens
  return {
    requestId, provider, baseUrl, apiKey, model, temperature, maxTokens, userMessage
    plannerModel := nonEmptyOr r.plannerModel model
    assistantName := nonEmptyOr r.assistantName config.assistantName
    locale := .parse r.locale
    enableWiki := r.enableWiki.getD true
    enableWeb := r.enableWeb.getD true
    enablePlanner := r.enablePlanner.getD true
    wikiRepo := nonEmptyOr r.wikiRepo config.wikiRepo
    history := History.normalize r.history
    context := { r.context with rows := r.context.rows.take Scan.Context.maxRows } }

end ChatRequest

end Advisor

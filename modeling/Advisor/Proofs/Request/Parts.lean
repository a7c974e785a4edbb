import Advisor.Request

/-!
The parts of a request are checked one after the other. What is refused is refused for what it says, and
what stands beside the checks goes into the turn as it is.
-/

namespace Advisor

namespace ChatRequest

def address (r : ChatRequest) (config : Config) : Except Failure String :=
  match config.baseUrl? (Text.lower (nonEmptyOr r.provider config.defaultProvider)) with
  | some url => .ok url
  | none => .error (.validation
      ("unsupported provider: " ++ Text.lower (nonEmptyOr r.provider config.defaultProvider)))

def toTurn (r : ChatRequest) (config : Config) (requestId apiKey model userMessage baseUrl : String)
    (temperature : Number.Binary) (maxTokens : Nat) : Turn where
  requestId := requestId
  provider := Text.lower (nonEmptyOr r.provider config.defaultProvider)
  baseUrl := baseUrl
  apiKey := apiKey
  model := model
  plannerModel := nonEmptyOr r.plannerModel model
  temperature := temperature
  maxTokens := maxTokens
  assistantName := nonEmptyOr r.assistantName config.assistantName
  locale := .parse r.locale
  userMessage := userMessage
  enableWiki := r.enableWiki.getD true
  enableWeb := r.enableWeb.getD true
  enablePlanner := r.enablePlanner.getD true
  wikiRepo := nonEmptyOr r.wikiRepo config.wikiRepo
  history := History.normalize r.history
  context := { r.context with rows := r.context.rows.take Scan.Context.maxRows }

theorem validate_eq (r : ChatRequest) (config : Config) (requestId : String) :
    r.validate config requestId = do
      let apiKey ← required "api_key" (Text.trim r.apiKey)
      let model ← required "model" (Text.trim r.model)
      let userMessage ← required "user_message"
        (Text.truncate (Text.trim r.userMessage) History.maxMessageRunes)
      let baseUrl ← r.address config
      let temperature ← temperatureOf r.temperature
      let maxTokens ← maxTokensOf r.maxTokens
      return r.toTurn config requestId apiKey model userMessage baseUrl temperature maxTokens := by
  unfold validate address
  dsimp only
  cases config.baseUrl? (Text.lower (nonEmptyOr r.provider config.defaultProvider)) <;> rfl

end ChatRequest

end Advisor

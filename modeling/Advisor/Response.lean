import Advisor.Completion.Call
import Advisor.Request

namespace Advisor

structure Trail where
  requestId : String
  classifiedIntent : Option Intent
  plan : Option Plan
  plannerUsed : Bool
  clarification : Bool
  preflight : Option Preflight
  accountWanted : Bool
  accountAvailable : Bool
  wikiSnippets : Nat
  webSnippets : Nat
  retried : Bool
  modelCalls : Nat
  deriving DecidableEq, Repr

structure ChatResponse where
  answer : String
  provider : String
  model : String
  assistant : String
  intent : Intent
  trail : Trail
  warnings : List String
  messageId : String
  usage : Json.Fields

def Trail.start (requestId : String) : Trail :=
  ⟨requestId, none, none, false, false, none, false, false, 0, 0, false, 0⟩

def Trail.toJson (t : Trail) : Json :=
  .obj [
    ("request_id", .str t.requestId),
    ("classified_intent", .ofOption (fun i => .str i.name) t.classifiedIntent),
    ("plan", .ofOption Plan.toJson t.plan), ("planner_used", .bool t.plannerUsed),
    ("clarification", .bool t.clarification), ("preflight", .ofOption Preflight.toJson t.preflight),
    ("runtime_requested", .bool t.accountWanted), ("runtime_available", .bool t.accountAvailable),
    ("wiki_snippets", .ofNat t.wikiSnippets), ("web_snippets", .ofNat t.webSnippets),
    ("retried", .bool t.retried), ("model_calls", .ofNat t.modelCalls)]

def ChatResponse.toJson (r : ChatResponse) : Json :=
  .obj [
    ("answer", .str r.answer), ("provider", .str r.provider), ("model", .str r.model),
    ("assistant", .str r.assistant), ("intent", .str r.intent.name), ("pipeline", r.trail.toJson),
    ("warnings", .arr (r.warnings.map .str)), ("provider_id", .str r.messageId),
    ("provider_usage", .obj r.usage)]

end Advisor

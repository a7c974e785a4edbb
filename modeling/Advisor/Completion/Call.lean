import Advisor.Message
import Advisor.Number.Binary

namespace Advisor

structure Call where
  provider : String
  baseUrl : String
  apiKey : String
  model : String
  messages : List Message
  temperature : Number.Binary
  maxTokens : Nat
  timeoutMs : Nat
  deriving DecidableEq, Repr

structure Reply where
  answer : String
  model : String
  messageId : String
  usage : Json.Fields
  deriving Inhabited

namespace Call

/-- The body of the request for a completion. Only a streamed one asks for the usage by name. -/
def wireBody (call : Call) (streaming : Bool) : Json :=
  .obj ([
    ("model", .str call.model), ("messages", .arr (call.messages.map Message.toJson)),
    ("temperature", .num (.single call.temperature)), ("max_tokens", .ofNat call.maxTokens),
    ("stream", .bool streaming)] ++
    if streaming then [("stream_options", Json.obj [("include_usage", .bool true)])] else [])

end Call

namespace Reply

def toJson (r : Reply) : Json :=
  .obj [
    ("answer", .str r.answer), ("model", .str r.model), ("provider_message_id", .str r.messageId),
    ("usage", .obj r.usage)]

end Reply

end Advisor

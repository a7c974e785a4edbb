import Advisor.Completion.Body
import Advisor.Config
import Advisor.Dialogue.Question
import Advisor.Remote.Exchange
import Advisor.Stream.Lines

namespace Advisor.Remote.Model

/-! Models behind the chat completion protocol. -/

def request? (call : Call) (streaming : Bool) : Option Request :=
  Request.post? (Config.withoutEndSlashes call.baseUrl ++ "/chat/completions") (some call.apiKey)
    (call.wireBody streaming)

/-- A timeout is told by the limit of the call; anything else that breaks, by what was going on. -/
def failure (call : Call) (doing : String) : Breakdown → Failure
  | .timedOut => .timedOut call.timeoutMs
  | .broken => .provider (doing ++ ": broken off")

/-- The body of a response, unless it reports an error. A report that cannot be read is empty. -/
def opened (call : Call) (e : Exchange) : Except Failure (List UInt8 × Ending) := do
  match e.head with
  | .error b => throw (failure call "request failed" b)
  | .ok (status, body, ending) =>
      if Exchange.isSuccess status then return (body, ending)
      else
        let text := (Exchange.textOf body ending).toOption.getD ""
        throw (.providerStatus status (clipBody text))

def completion (call : Call) (e : Exchange) : Except Failure Reply := do
  let (body, ending) ← opened call e
  match Exchange.textOf body ending with
  | .ok text => Completion.parse text call.model
  | .error b => throw (failure call "failed to read body" b)

def source (body : List UInt8) : Ending → Stream.Source
  | .whole => [.ok body]
  | _ => [.ok body, .error "broken off"]

/-- The lines of a body. When it breaks off, the line that has begun is lost. -/
def signals (body : List UInt8) (ending : Ending) : List Stream.Signal :=
  (Stream.LineReader.start (source body ending)).all.map fun
    | .ok line => .line line
    | .error why => .fault why

def stream (call : Call) (e : Exchange) : Except Failure (List Stream.Signal) := do
  let (body, ending) ← opened call e
  return signals body ending

end Advisor.Remote.Model

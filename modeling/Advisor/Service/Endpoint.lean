import Advisor.Consultation
import Advisor.Dialogue.Run
import Advisor.Service.Body
import Advisor.Service.MediaType

namespace Advisor.Service

/-! The service as its clients see it: a health check, and a chat that answers at once or as a stream of
events. -/

structure Request where
  method : String
  path : String
  contentType : Option String
  body : Body
  deriving DecidableEq, Repr

/-- A body is a line of JSON for each value. -/
structure Response where
  status : Nat
  contentType : Option String
  body : List Json

namespace Response

def empty (status : Nat) : Response := ⟨status, none, []⟩

def json (status : Nat) (value : Json) : Response := ⟨status, some "application/json", [value]⟩

def events (sent : List Stream.Event) : Response :=
  ⟨200, some "application/x-ndjson", sent.map Stream.Event.toJson⟩

def statusOf : Failure → Nat
  | .validation _ => 400
  | .cancelled => 408
  | .timeout _ => 504
  | _ => 502

def failure (e : Failure) : Response :=
  json (statusOf e) (.obj [("error", .str e.message)])

def ofResult : Except Failure ChatResponse → Response
  | .ok r => json 200 r.toJson
  | .error e => failure e

end Response

section Reading

/-- Longer bodies are not read, in bytes. -/
def maxBodyBytes : Nat := 2 * 1024 * 1024

def isJson (contentType : Option String) : Bool :=
  match contentType.bind MediaType.parse? with
  | some m => m.isJson
  | none => false

def faultText : Json.Fault → String
  | .malformed => "Failed to parse the request body as JSON: malformed"
  | .mistyped => "Failed to deserialize the JSON body into the target type: mistyped"

def readChat (r : Request) : Except Failure ChatRequest :=
  if !isJson r.contentType then
    .error (.validation "Expected request with \x60Content-Type: application/json\x60")
  else if maxBodyBytes < r.body.size then
    .error (.validation "Failed to buffer the request body: length limit exceeded")
  else
    match Json.Decoder.ofPrefix ChatRequest.decoder r.body.text with
    | .ok chat => .ok chat
    | .error fault => .error (.validation (faultText fault))

def readTurn (config : Config) (requestId : String) (r : Request) : Except Failure Turn := do
  (← readChat r).validate config requestId

end Reading

inductive Route
  | health
  | chat
  | chatStream
  deriving DecidableEq, Repr

namespace Route

def isPathEnd (c : Char) : Bool := c == '?' || c == '#'

/-- The path of a target, which may name the server before it. -/
def pathOf (target : List Char) : List Char :=
  let rest :=
    match (Text.afterPrefix? "http://".toList target).or (Text.afterPrefix? "https://".toList target) with
    | some named => named.dropWhile fun c => c != '/' && !isPathEnd c
    | none => target
  rest.takeWhile (!isPathEnd ·)

def ofPath? (path : String) : Option Route :=
  match String.ofList (pathOf path.toList) with
  | "/health" => some health
  | "/station/ai/chat" => some chat
  | "/station/ai/chat/stream" => some chatStream
  | _ => none

end Route

inductive Task
  | reply (r : Response)
  | health (withBody : Bool)
  | answer (turn : Turn)
  | stream (turn : Turn)

def chatTask (config : Config) (requestId : String) (r : Request) (accept : Turn → Task) : Task :=
  match readTurn config requestId r with
  | .ok turn => accept turn
  | .error e => .reply (.failure e)

/-- Questions of browsers, whether they may ask, are answered everywhere with yes. -/
def taskFor (config : Config) (requestId : String) (r : Request) : Task :=
  if r.method = "OPTIONS" then .reply (.empty 200)
  else
    match Route.ofPath? r.path, r.method with
    | none, _ => .reply (.empty 404)
    | some .health, "GET" => .health true
    | some .health, "HEAD" => .health false
    | some .chat, "POST" => chatTask config requestId r .answer
    | some .chatStream, "POST" => chatTask config requestId r .stream
    | some _, _ => .reply (.empty 405)

def healthBody (now : Timestamp) : Json :=
  .obj [("status", .str "healthy"), ("timestamp", .str now.offsetText)]

namespace Task

/-- Carries a task out in a world. A stream is what has been heard of it, also when it is abandoned. -/
def carryOut (p : Practice) (w : World σ) (s : Scene σ) : Task → Response × Scene σ
  | reply r => (r, s)
  | health withBody =>
      let r := Response.json 200 (healthBody (w.today s.outside))
      (if withBody then r else { r with body := [] }, s)
  | answer turn =>
      let (result, s) := (Consultation.answer p false turn).run.run w s
      (match result with
        | some result => .ofResult result
        | none => .failure .cancelled, s)
  | stream turn =>
      let (_, s) := (Consultation.stream p turn).run.run w s
      (.events s.heard, s)

end Task

/-- Answers a request. The acts of the scene afterwards are those of this request. -/
def serve (p : Practice) (config : Config) (requestId : String) (w : World σ) (s : Scene σ) (r : Request) :
    Response × Scene σ :=
  (taskFor config requestId r).carryOut p w { s with acts := [] }

end Advisor.Service

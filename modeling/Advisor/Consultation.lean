import Advisor.Account.Concern
import Advisor.Account.Lookup
import Advisor.Answer.Correction
import Advisor.Intent.Classification
import Advisor.Knowledge.Retrieval
import Advisor.Plan.Planning
import Advisor.Prompt.Messages
import Advisor.Scan.Preflight
import Advisor.Stream.Relay
import Advisor.Stream.Stage

namespace Advisor

/-! How a turn is answered: its message is classified and planned for, its context cut to the plan and
checked, knowledge gathered, and a model asked, whose answer has to pass the rules. A client that
listens is told of each stage before it begins. -/

/-- Who plans, what an answer has to pass, how long things may take, and what there is to look things
up in. -/
structure Practice where
  planner : Plan.Planner
  rules : List Answer.Rule
  timeouts : Timeouts
  library : Knowledge.Library

def Turn.intent (turn : Turn) : Intent :=
  .classify turn.userMessage turn.history

namespace Consultation

structure Draft where
  turn : Turn
  trail : Trail
  warnings : List String

namespace Draft

def start (turn : Turn) : Draft :=
  ⟨turn, { Trail.start turn.requestId with classifiedIntent := some turn.intent }, []⟩

def planned (d : Draft) (planned : Plan.Planned) : Draft :=
  { d with
    trail := {
      d.trail with
      plan := some planned.plan
      plannerUsed := planned.modelCalled && planned.warning.isNone
      modelCalls := if planned.modelCalled then 1 else 0 }
    warnings := planned.warning.toList }

def asking (d : Draft) : Draft :=
  { d with trail := { d.trail with clarification := true } }

def acquainted (d : Draft) (wanted : Bool) (account : Account.View) : Draft :=
  { d with
    trail := {
      d.trail with
      accountWanted := wanted
      accountAvailable := wanted && account.available } }

def preflighted (d : Draft) (preflight : Preflight) : Draft :=
  { d with trail := { d.trail with preflight := some preflight } }

def informed (d : Draft) (found : Prompt.Findings) : Draft :=
  { d with
    trail := {
      d.trail with
      wikiSnippets := found.wiki.length
      webSnippets := found.web.length }
    warnings := d.warnings ++ found.warnings }

def called (d : Draft) : Draft :=
  { d with trail := { d.trail with modelCalls := d.trail.modelCalls + 1 } }

def checked (d : Draft) (c : Answer.Checked) : Draft :=
  { d with
    trail := {
      d.trail with
      modelCalls := d.trail.modelCalls + c.extraCalls
      retried := c.corrected }
    warnings := d.warnings ++ c.warnings }

def respond (d : Draft) (intent : Intent) (reply : Reply) : ChatResponse where
  answer := reply.answer
  provider := d.turn.provider
  model := reply.model
  assistant := d.turn.assistantName
  intent := intent
  trail := d.trail
  warnings := d.warnings
  messageId := reply.messageId
  usage := reply.usage

def respondPlainly (d : Draft) (intent : Intent) (answer : String) : ChatResponse :=
  d.respond intent ⟨answer, d.turn.model, "", []⟩

end Draft

def report (listening : Bool) (stage : Stream.Stage) : Attempt Unit :=
  if listening then Attempt.send stage.event else return ()

/-- What a turn comes to before a model is asked for its answer: a response that needs no model, or the
call. -/
inductive Briefing
  | reply (response : ChatResponse)
  | call (d : Draft) (plan : Plan) (call : Call)

section Stages

variable (p : Practice) (listening : Bool)

def prepare (turn : Turn) : Attempt Plan.Planned := do
  report listening .classify
  report listening .plan
  ExceptT.lift (Plan.forTurn p.planner turn turn.intent)

def accountFor (wanted : Bool) (own : Account.View) (locale : Locale) : Dialogue Account.View :=
  if wanted then Account.lookup locale else return own

def generationCall (turn : Turn) (messages : List Message) : Call where
  provider := turn.provider
  baseUrl := turn.baseUrl
  apiKey := turn.apiKey
  model := turn.model
  messages := messages
  temperature := turn.temperature
  maxTokens := turn.maxTokens
  timeoutMs := p.timeouts.generation

def inform (d : Draft) (plan : Plan) (context : Scan.Context) (preflight : Preflight) :
    Attempt Briefing := do
  report listening .retrieval
  let found ← ExceptT.lift (Knowledge.findings p.library plan d.turn)
  report listening .generation
  let messages := Prompt.messages
    { turn := d.turn, plan, context, preflight, findings := found,
      accountWanted := d.trail.accountWanted }
  return .call (d.informed found) plan (generationCall p d.turn messages)

def check (d : Draft) (plan : Plan) (context : Scan.Context) : Attempt Briefing := do
  report listening .preflight
  let preflight := Preflight.check plan context d.trail.accountWanted d.turn.locale
  let d := d.preflighted preflight
  if preflight.status = .fail then
    return .reply (d.respondPlainly plan.intent (preflight.refusal d.turn.locale))
  inform p listening d plan context preflight

def scope (d : Draft) (plan : Plan) : Attempt Briefing := do
  report listening .context
  let wanted := Account.concerns plan.intent d.turn.userMessage
  let context := d.turn.context.scopedTo plan
  let account ← ExceptT.lift (accountFor wanted context.account d.turn.locale)
  check p listening (d.acquainted wanted account) plan { context with account }

def followPlan (d : Draft) (plan : Plan) : Attempt Briefing :=
  match plan.question? with
  | some question => return .reply (d.asking.respondPlainly plan.intent question)
  | none => scope p listening d plan

def brief (turn : Turn) : Attempt Briefing := do
  let planned ← prepare p listening turn
  followPlan p listening ((Draft.start turn).planned planned) planned.plan

def generate (call : Call) : Attempt Reply :=
  if listening then
    Attempt.within p.timeouts.stream do
      let signals ← Attempt.await (.stream { call with timeoutMs := p.timeouts.stream })
      Stream.relayFor call signals
  else Attempt.await (.completion call)

def settle (d : Draft) (plan : Plan) (call : Call) (first : Reply) : Attempt ChatResponse := do
  if (Answer.refusal? p.rules plan.intent first.answer).isSome then
    report listening .retry
  let checked ← ExceptT.lift (Answer.checked p.rules call first plan.intent d.turn.locale)
  return (d.checked checked).respond plan.intent checked.reply

def answerByModel (d : Draft) (plan : Plan) (call : Call) : Attempt ChatResponse := do
  let first ← generate p listening call
  settle p listening d.called plan call first

def conclude : Briefing → Attempt ChatResponse
  | .reply response => return response
  | .call d plan call => answerByModel p listening d plan call

def answer (turn : Turn) : Attempt ChatResponse := do
  let briefing ← brief p listening turn
  conclude p listening briefing

end Stages

def lastEvent? : Except Failure ChatResponse → Option Stream.Event
  | .ok response => some (.result response Stream.donePct)
  | .error .cancelled => none
  | .error e => some (.error e.message Stream.donePct)

def stream (p : Practice) (turn : Turn) : Attempt Unit := do
  let result ← ExceptT.lift (answer p true turn).run
  match lastEvent? result with
  | some event => Attempt.send event
  | none => throw .cancelled

end Consultation

end Advisor

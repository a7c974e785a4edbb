import Advisor.Dialogue.Basic
import Advisor.Plan.Inquiry
import Advisor.Plan.Proposal

namespace Advisor.Plan

def ofReply (reply : String) (classified : Intent) : Except Failure Plan :=
  if (Text.trim reply).isEmpty then .error (.planner "empty planner response")
  else
    match objectText? reply with
    | none => .error (.planner "planner response contains no JSON object")
    | some text =>
        match Json.parse? text with
        | none => .error (.planner "failed to parse planner response: not JSON")
        | some raw =>
            if raw.isObj then .ok (ofProposal raw classified)
            else .error (.planner "planner response is not an object")

structure Planned where
  plan : Plan
  warning : Option String
  modelCalled : Bool

/-- What holds of every plan for a turn: the guards, and no retrieval that the user switched off. -/
def limitedTo (plan : Plan) (turn : Turn) : Plan :=
  let plan := plan.guarded
  { plan with
    needWiki := plan.needWiki && turn.enableWiki
    needWeb := plan.needWeb && turn.enableWeb }

namespace Planned

def unasked (intent : Intent) : Planned := ⟨.default intent, none, false⟩

def ofAnswer (intent : Intent) : Except Failure Plan → Planned
  | .ok plan => ⟨plan, none, true⟩
  | .error e =>
      ⟨.default intent, some ("planner unavailable, default plan used: " ++ e.message), true⟩

def limitedTo (p : Planned) (turn : Turn) : Planned :=
  { p with plan := p.plan.limitedTo turn }

end Planned

/-- Who proposes plans: what a model is asked about a turn, and which plan its reply is taken for. -/
structure Planner where
  call : Turn → Intent → Call
  read : Turn → Intent → Reply → Except Failure Plan

def Planner.standard (timeoutMs : Nat) : Planner where
  call turn intent := inquiryCall turn intent timeoutMs
  read _ intent reply := ofReply reply.answer intent

/-- A model is asked only where the user lets it be, and never about small talk. -/
def asksModel (turn : Turn) (intent : Intent) : Bool :=
  turn.enablePlanner && intent != .smalltalk

def forTurn (planner : Planner) (turn : Turn) (intent : Intent) : Dialogue Planned :=
  if asksModel turn intent then do
    let call := planner.call turn intent
    let reply ← Dialogue.askWithin call.timeoutMs (.completion call)
    return (Planned.ofAnswer intent (reply.bind (planner.read turn intent))).limitedTo turn
  else return (Planned.unasked intent).limitedTo turn

end Advisor.Plan

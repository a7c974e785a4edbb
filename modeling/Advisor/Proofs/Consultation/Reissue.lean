import Advisor.Proofs.Consultation.Stages
import Advisor.Proofs.Dialogue.Ticket

/-!
A turn under another ticket is answered in the same way: its stages read neither the key nor the name, and
hand them on to the calls and to the response.
-/

namespace Advisor

open Dialogue

theorem Question.About.not_model {topic : Topic} {q : Question} (h : q.About topic)
    (ht : topic ≠ .model) : q.topic ≠ .model :=
  fun hq => ht (h.symm.trans hq)

variable {key : String} {ticket : Ticket}

namespace Plan

theorem reissued_forTurn (timeoutMs : Nat) {turn : Turn} (hkey : turn.apiKey = key) (intent : Intent) :
    Dialogue.Reissued key ticket Eq (forTurn (.standard timeoutMs) turn intent)
      (forTurn (.standard timeoutMs) (turn.under ticket) intent) := by
  unfold forTurn
  rw [show asksModel (turn.under ticket) intent = asksModel turn intent from rfl]
  split
  · refine Dialogue.Reissued.bind (P := Eq) ?_ ?_
    · exact .completion hkey fun _ => .wait (.done rfl)
    · rintro reply _ rfl
      exact .done rfl
  · exact .done rfl

end Plan

theorem Knowledge.findings_under (library : Library) (plan : Plan) (turn : Turn) :
    findings library plan (turn.under ticket) = findings library plan turn := rfl

theorem Knowledge.reissued_findings (library : Library) (plan : Plan) (turn : Turn) :
    Dialogue.Reissued key ticket Eq (findings library plan turn)
      (findings library plan (turn.under ticket)) := by
  rw [findings_under]
  refine (asks_findings library plan turn).reissued fun q hq => ?_
  rcases hq with hq | hq
  · exact hq.not_model (by decide)
  · exact hq.not_model (by decide)

namespace Stream

theorem reissued_deliver (steps : List Step) :
    Attempt.Reissued key ticket Eq (deliver steps) (deliver steps) := by
  induction steps with
  | nil => exact Attempt.reissued_pure rfl
  | cons step steps ih =>
      cases step with
      | delta text pct => exact (Attempt.reissued_send (.delta text pct)).bind fun _ _ _ => ih
      | failed message => exact .done (.error _)
      | done => exact ih

theorem reissued_conclude (a : Assembler) :
    Attempt.Reissued key ticket Eq (conclude a) (conclude a) := by
  unfold conclude
  split
  · rename_i usage _
    exact (Attempt.reissued_send (.usage usage usagePct)).bind fun _ _ _ =>
      Attempt.reissued_pure rfl
  · exact Attempt.reissued_pure rfl

theorem reissued_relay (pace : Nat → Nat) (a : Assembler) (signals : List Signal) :
    Attempt.Reissued key ticket Eq (relay pace a signals) (relay pace a signals) := by
  induction signals generalizing a with
  | nil =>
      unfold relay
      split
      · exact reissued_conclude a
      · exact (reissued_deliver _).bind fun _ _ _ => reissued_conclude _
  | cons signal signals ih =>
      unfold relay
      split
      · exact reissued_conclude a
      · cases signal with
        | line text => exact (reissued_deliver _).bind fun _ _ _ => ih _
        | fault why => exact .done (.error why)
        | pause lapse => exact (Attempt.reissued_pause lapse).bind fun _ _ _ => ih a

end Stream

theorem Answer.reissued_checked (rules : List Rule) {call : Call} (hkey : call.apiKey = key)
    (first : Reply) (intent : Intent) (locale : Locale) :
    Dialogue.Reissued key ticket Eq (checked rules call first intent locale)
      (checked rules (call.under ticket) first intent locale) := by
  unfold checked
  split
  · exact .done rfl
  · exact .completion hkey fun _ => .wait (.done rfl)

namespace Consultation

def Draft.under (ticket : Ticket) (d : Draft) : Draft :=
  { d with turn := d.turn.under ticket, trail := d.trail.under ticket }

/-- What two turns come to before a model is asked for the answer, the second under a ticket. -/
inductive Briefing.Reissued (key : String) (ticket : Ticket) : Briefing → Briefing → Prop
  | reply (response : ChatResponse) :
      Reissued key ticket (.reply response) (.reply (response.under ticket))
  | call (d : Draft) (plan : Plan) {call : Call} (hkey : call.apiKey = key) :
      Reissued key ticket (.call d plan call) (.call (d.under ticket) plan (call.under ticket))

/-- The second is the first under the ticket. -/
def SameUnder (ticket : Ticket) (response response' : ChatResponse) : Prop :=
  response' = response.under ticket

variable (p : Practice) (timeoutMs : Nat) (listening : Bool)

theorem reissued_report (stage : Stream.Stage) :
    Attempt.Reissued key ticket Eq (report listening stage) (report listening stage) := by
  unfold report
  split
  · exact Attempt.reissued_send stage.event
  · exact Attempt.reissued_pure rfl

theorem reissued_prepare (hp : p.planner = .standard timeoutMs) {turn : Turn}
    (hkey : turn.apiKey = key) :
    Attempt.Reissued key ticket Eq (prepare p listening turn)
      (prepare p listening (turn.under ticket)) := by
  refine (reissued_report listening .classify).bind fun _ _ _ => ?_
  refine (reissued_report listening .plan).bind fun _ _ _ => ?_
  rw [hp]
  exact Attempt.reissued_lift (Plan.reissued_forTurn timeoutMs hkey turn.intent)

theorem reissued_inform {d : Draft} (hkey : d.turn.apiKey = key) (plan : Plan)
    (context : Scan.Context) (preflight : Preflight) :
    Attempt.Reissued key ticket (Briefing.Reissued key ticket)
      (inform p listening d plan context preflight)
      (inform p listening (d.under ticket) plan context preflight) := by
  refine (reissued_report listening .retrieval).bind fun _ _ _ => ?_
  refine (Attempt.reissued_lift (Knowledge.reissued_findings p.library plan d.turn)).bind ?_
  rintro found _ rfl
  refine (reissued_report listening .generation).bind fun _ _ _ => ?_
  exact Attempt.reissued_pure (.call (d.informed found) plan hkey)

theorem reissued_check {d : Draft} (hkey : d.turn.apiKey = key) (plan : Plan)
    (context : Scan.Context) :
    Attempt.Reissued key ticket (Briefing.Reissued key ticket) (check p listening d plan context)
      (check p listening (d.under ticket) plan context) := by
  refine (reissued_report listening .preflight).bind fun _ _ _ => ?_
  change Attempt.Reissued key ticket _
    (if (Preflight.check plan context d.trail.accountWanted d.turn.locale).status = .fail then _ else _)
    (if (Preflight.check plan context d.trail.accountWanted d.turn.locale).status = .fail then _ else _)
  split
  · exact Attempt.reissued_pure (.reply _)
  · exact reissued_inform p listening (d := d.preflighted _) hkey plan context _

theorem reissued_scope {d : Draft} (hkey : d.turn.apiKey = key) (plan : Plan) :
    Attempt.Reissued key ticket (Briefing.Reissued key ticket) (scope p listening d plan)
      (scope p listening (d.under ticket) plan) := by
  refine (reissued_report listening .context).bind fun _ _ _ => ?_
  refine (Attempt.reissued_lift (Q := Eq) ?_).bind ?_
  · exact (asks_accountFor _ _ d.turn.locale).reissued fun q hq => hq.1.not_model (by decide)
  · rintro account _ rfl
    exact reissued_check p listening (d := d.acquainted _ account) hkey plan _

theorem reissued_followPlan {d : Draft} (hkey : d.turn.apiKey = key) (plan : Plan) :
    Attempt.Reissued key ticket (Briefing.Reissued key ticket) (followPlan p listening d plan)
      (followPlan p listening (d.under ticket) plan) := by
  unfold followPlan
  split
  · exact Attempt.reissued_pure (.reply _)
  · exact reissued_scope p listening hkey plan

theorem reissued_brief (hp : p.planner = .standard timeoutMs) {turn : Turn}
    (hkey : turn.apiKey = key) :
    Attempt.Reissued key ticket (Briefing.Reissued key ticket) (brief p listening turn)
      (brief p listening (turn.under ticket)) := by
  refine (reissued_prepare p timeoutMs listening hp hkey).bind ?_
  rintro planned _ rfl
  exact reissued_followPlan p listening hkey planned.plan

theorem reissued_generate {call : Call} (hkey : call.apiKey = key) :
    Attempt.Reissued key ticket Eq (generate p listening call)
      (generate p listening (call.under ticket)) := by
  unfold generate
  split
  · refine Attempt.Reissued.within ?_ p.timeouts.stream
    refine Attempt.Reissued.bind (P := Eq) ?_ ?_
    · exact @Attempt.reissued_stream key ticket { call with timeoutMs := p.timeouts.stream } hkey
    · rintro signals _ rfl
      exact Stream.reissued_relay _ _ signals
  · exact Attempt.reissued_completion hkey

theorem reissued_settle (d : Draft) (plan : Plan) {call : Call} (hkey : call.apiKey = key)
    (first : Reply) :
    Attempt.Reissued key ticket (SameUnder ticket) (settle p listening d plan call first)
      (settle p listening (d.under ticket) plan (call.under ticket) first) := by
  have hchecked : Attempt.Reissued key ticket (SameUnder ticket)
      (do
        let checked ← ExceptT.lift (Answer.checked p.rules call first plan.intent d.turn.locale)
        return (d.checked checked).respond plan.intent checked.reply)
      (do
        let checked ← ExceptT.lift
          (Answer.checked p.rules (call.under ticket) first plan.intent d.turn.locale)
        return ((d.under ticket).checked checked).respond plan.intent checked.reply) := by
    refine (Attempt.reissued_lift (Answer.reissued_checked p.rules hkey ..)).bind ?_
    rintro checked _ rfl
    exact Attempt.reissued_pure rfl
  unfold settle
  split
  · exact (reissued_report listening .retry).bind fun _ _ _ => hchecked
  · exact hchecked

theorem reissued_conclude {briefing briefing' : Briefing}
    (h : briefing.Reissued key ticket briefing') :
    Attempt.Reissued key ticket (SameUnder ticket) (conclude p listening briefing)
      (conclude p listening briefing') := by
  cases h with
  | reply response => exact Attempt.reissued_pure rfl
  | call d plan hkey =>
      refine (reissued_generate p listening hkey).bind ?_
      rintro first _ rfl
      exact reissued_settle p listening d.called plan hkey first

theorem reissued_answer (hp : p.planner = .standard timeoutMs) {turn : Turn}
    (hkey : turn.apiKey = key) :
    Attempt.Reissued key ticket (SameUnder ticket) (answer p listening turn)
      (answer p listening (turn.under ticket)) :=
  (reissued_brief p timeoutMs listening hp hkey).bind fun _ _ h => reissued_conclude p listening h

theorem reissued_stream (hp : p.planner = .standard timeoutMs) {turn : Turn}
    (hkey : turn.apiKey = key) :
    Attempt.Reissued key ticket Eq (stream p turn) (stream p (turn.under ticket)) := by
  refine (Attempt.reissued_lift (reissued_answer p timeoutMs true hp hkey)).bind ?_
  intro result result' h
  cases h with
  | ok h =>
      cases h
      exact Attempt.reissued_send _
  | error e =>
      unfold lastEvent?
      cases e with
      | cancelled => exact .done (.error _)
      | _ => exact Attempt.reissued_send _

end Consultation

end Advisor

import Advisor.Proofs.Consultation.Stages
import Advisor.Proofs.Dialogue.Yielding

namespace Advisor

open Dialogue

namespace Answer

variable {rules : List Rule} {call : Call} {first : Reply} {intent : Intent} {locale : Locale}

theorem run_checked_passed (h : refusal? rules intent first.answer = none) (w : World σ)
    (s : Scene σ) :
    (checked rules call first intent locale).run w s = (some ⟨first, [], false⟩, s) := by
  rw [checked, h]
  rfl

theorem run_checked_refused (h : refusal? rules intent first.answer = some reason) (w : World σ)
    (s : Scene σ) :
    (checked rules call first intent locale).run w s =
      let q := .completion (correctiveCall call first.answer reason intent locale)
      let (arrival, outside) := w.answer q s.outside
      let t := { s.act (.asked q arrival) with outside }
      match w.pass arrival.lapse outside with
      | some outside => (some (.ofCorrection rules intent first reason arrival.result),
          { t with outside })
      | none => (none, t) := by
  rw [checked, h]
  rfl

/-- What is asked about a first answer: nothing if it passes, and else for one completion more, of the
same call with the refused answer and a word on it put behind its messages. -/
structure AskedOnce (rules : List Rule) (call : Call) (first : Reply) (intent : Intent)
    (acts : List Act) : Prop where
  passed : refusal? rules intent first.answer = none → acts = []
  refused : refusal? rules intent first.answer ≠ none → ∃ text arrival,
    acts = [.asked (.completion { call with
      messages := call.messages ++ [⟨.assistant, first.answer⟩, ⟨.user, text⟩] }) arrival]

/-- The reply that a correction brought, if the rules let it pass. -/
def accepted? (rules : List Rule) (intent : Intent) : List Act → Option Reply
  | [.asked (.completion _) arrival] =>
      arrival.result.toOption.filter fun reply => (refusal? rules intent reply.answer).isNone
  | _ => none

theorem accepted?_reply (rules : List Rule) (intent : Intent) (q : Call) (lapse : Lapse)
    (reply : Reply) : accepted? rules intent [.asked (.completion q) ⟨lapse, .ok reply⟩] =
      if (refusal? rules intent reply.answer).isNone then some reply else none :=
  rfl

def keptWarnings (reason again : String) : List String :=
  ["answer validation: " ++ reason, "answer validation after retry: " ++ again]

/-- What comes of the check of a first answer, given what has been asked about it. -/
structure Outcome (rules : List Rule) (first : Reply) (intent : Intent) (acts : List Act)
    (c : Checked) : Prop where
  reply : c.reply = (accepted? rules intent acts).getD first
  counted : c.extraCalls = acts.length
  quiet : c.warnings = [] ↔ refusal? rules intent c.reply.answer = none
  warned : c.warnings ≠ [] → c.reply = first ∧ ∃ reason again,
    refusal? rules intent first.answer = some reason ∧ c.warnings = keptWarnings reason again

theorem outcome_passed (h : refusal? rules intent first.answer = none) :
    Outcome rules first intent [] ⟨first, [], false⟩ where
  reply := rfl
  counted := rfl
  quiet := ⟨fun _ => h, fun _ => rfl⟩
  warned hne := absurd rfl hne

theorem outcome_kept (h : refusal? rules intent first.answer = some reason)
    (hnone : accepted? rules intent [a] = none) (again : String) :
    Outcome rules first intent [a] ⟨first, keptWarnings reason again, true⟩ where
  reply := by rw [hnone]; rfl
  counted := rfl
  quiet := by
    rw [h]
    exact ⟨fun he => (by cases he), fun he => (by cases he)⟩
  warned _ := ⟨rfl, reason, again, h, rfl⟩

theorem outcome_ofCorrection (h : refusal? rules intent first.answer = some reason) (q : Call)
    (arrival : Arrival Reply) :
    Outcome rules first intent [.asked (.completion q) arrival]
      (.ofCorrection rules intent first reason arrival.result) := by
  obtain ⟨lapse, result⟩ := arrival
  cases result with
  | error e => exact outcome_kept h rfl _
  | ok second =>
      cases hsecond : refusal? rules intent second.answer with
      | some again =>
          have hkept : Checked.ofCorrection rules intent first reason (.ok second) =
              ⟨first, keptWarnings reason again, true⟩ := by
            simp only [Checked.ofCorrection, hsecond]
            rfl
          simp only [hkept]
          exact outcome_kept h (by rw [accepted?_reply, hsecond]; rfl) again
      | none =>
          have htaken : Checked.ofCorrection rules intent first reason (.ok second) =
              ⟨second, [], true⟩ := by
            simp only [Checked.ofCorrection, hsecond]
          simp only [htaken]
          refine ⟨?_, rfl, by simp [hsecond], fun hne => absurd rfl hne⟩
          rw [accepted?_reply, hsecond]
          rfl

theorem course_outcome (h : Course (checked rules call first intent locale) acts (some c)) :
    Outcome rules first intent acts c := by
  rcases course_checked h with ⟨hpass, rfl, he⟩ | ⟨reason, arrival, hrefused, rfl, hc⟩
  · cases he
    exact outcome_passed hpass
  · rw [hc c rfl]
    exact outcome_ofCorrection hrefused _ arrival

theorem run_checked (w : World σ) (rules : List Rule) (call : Call) (first : Reply)
    (intent : Intent) (locale : Locale) (s : Scene σ) :
    ∃ acts, ((checked rules call first intent locale).run w s).2.acts = s.acts ++ acts ∧
      AskedOnce rules call first intent acts ∧
      (∀ c, ((checked rules call first intent locale).run w s).1 = some c →
        Outcome rules first intent acts c) ∧
      (((checked rules call first intent locale).run w s).1 = none →
        ∃ lapse outside, w.pass lapse outside = none) := by
  cases h : refusal? rules intent first.answer with
  | none =>
      rw [run_checked_passed h]
      refine ⟨[], (List.append_nil _).symm, ⟨fun _ => rfl, fun hne => absurd h hne⟩, ?_, ?_⟩
      · rintro c he
        cases he
        exact outcome_passed h
      · intro he
        cases he
  | some reason =>
      rw [run_checked_refused h]
      obtain ⟨arrival, outside, hanswer⟩ : ∃ arrival outside, w.answer
          (.completion (correctiveCall call first.answer reason intent locale)) s.outside =
            (arrival, outside) := ⟨_, _, rfl⟩
      simp only [hanswer]
      have asked : AskedOnce rules call first intent
          [.asked (.completion (correctiveCall call first.answer reason intent locale)) arrival] :=
        ⟨fun he => (by rw [h] at he; cases he), fun _ => ⟨_, arrival, rfl⟩⟩
      cases hpass : w.pass arrival.lapse outside with
      | none => exact ⟨_, rfl, asked, fun c he => (by cases he), fun _ => ⟨_, _, hpass⟩⟩
      | some later =>
          refine ⟨_, rfl, asked, ?_, fun he => (by cases he)⟩
          rintro c he
          cases he
          exact outcome_ofCorrection h _ arrival

end Answer

namespace Consultation

/-- An answer that passes the rules of its plan, or is reported with both reasons against it. -/
def Vetted (rules : List Answer.Rule) (plan : Plan) (before : List String)
    (response : ChatResponse) : Prop :=
  (Answer.refusal? rules plan.intent response.answer = none ∧ response.warnings = before) ∨
    ∃ reason again, Answer.refusal? rules plan.intent response.answer = some reason ∧
      response.warnings = before ++ Answer.keptWarnings reason again

theorem vetted_of_outcome (h : Answer.Outcome rules first plan.intent acts c) (d : Draft) :
    Vetted rules plan d.warnings ((d.checked c).respond plan.intent c.reply) := by
  by_cases hwarned : c.warnings = []
  · refine .inl ⟨h.quiet.1 hwarned, ?_⟩
    simp [Draft.respond, Draft.checked, hwarned]
  · obtain ⟨hreply, reason, again, hreason, hwarnings⟩ := h.warned hwarned
    refine .inr ⟨reason, again, ?_, ?_⟩
    · rw [← hreason, ← hreply]
      rfl
    · simp [Draft.respond, Draft.checked, hwarnings]

variable {p : Practice} {listening : Bool}

theorem report_bind_yields {P : α → Prop} {f : Unit → Attempt α} (h : (f ()).Yields P) :
    (report listening stage >>= f).Yields P :=
  Attempt.yields_bind fun _ => h

def vet (p : Practice) (d : Draft) (plan : Plan) (call : Call) (first : Reply) :
    Attempt ChatResponse := do
  let checked ← ExceptT.lift (Answer.checked p.rules call first plan.intent d.turn.locale)
  return (d.checked checked).respond plan.intent checked.reply

theorem settle_eq (p : Practice) (listening : Bool) (d : Draft) (plan : Plan) (call : Call)
    (first : Reply) : settle p listening d plan call first =
      if (Answer.refusal? p.rules plan.intent first.answer).isSome then
        report listening .retry >>= fun _ => vet p d plan call first
      else vet p d plan call first :=
  rfl

theorem vet_yields (d : Draft) (plan : Plan) (call : Call) (first : Reply) :
    (vet p d plan call first).Yields fun response =>
      response.trail.plan = d.trail.plan ∧ Vetted p.rules plan d.warnings response := by
  refine Attempt.Yields.bind (P := fun c => ∃ acts,
      Answer.Outcome p.rules first plan.intent acts c)
    (Attempt.yields_lift fun acts c hc => ⟨acts, Answer.course_outcome hc⟩) ?_
  rintro c ⟨acts, houtcome⟩
  exact Attempt.yields_pure ⟨rfl, vetted_of_outcome houtcome d⟩

theorem answerByModel_yields (d : Draft) (plan : Plan) (call : Call) :
    (answerByModel p listening d plan call).Yields fun response =>
      response.trail.plan = d.trail.plan ∧ Vetted p.rules plan d.warnings response := by
  refine Attempt.yields_bind fun first => ?_
  have hvet := vet_yields (p := p) d.called plan call first
  rw [settle_eq]
  split
  · exact report_bind_yields hvet
  · exact hvet

def PutsBack (response : ChatResponse) : Prop :=
  response.trail.clarification ∧
    response.trail.plan.bind Plan.question? = some response.answer

/-- What a briefing says of its turn is so: a reply is the plan's question or a refusal, and the draft of
a call has the plan. -/
def Briefing.Founded : Briefing → Prop
  | .reply response => PutsBack response ∨ ∃ plan context wanted locale,
      response.answer = (Preflight.check plan context wanted locale).refusal locale
  | .call d plan _ => d.trail.plan = some plan

theorem followPlan_founded (hplan : d.trail.plan = some plan) :
    (followPlan p listening d plan).Yields Briefing.Founded := by
  intro acts briefing hc
  cases course_followPlan_ok hc with
  | @question question asks =>
      refine .inl ⟨rfl, ?_⟩
      change d.trail.plan.bind Plan.question? = some question
      rw [hplan]
      exact asks
  | refusal account => exact .inr ⟨plan, _, _, _, rfl⟩
  | call => exact hplan

theorem brief_founded (p : Practice) (listening : Bool) (turn : Turn) :
    (brief p listening turn).Yields Briefing.Founded :=
  Attempt.yields_bind fun _ => followPlan_founded rfl

/-- A first answer that the rules refuse is corrected by one call, and the reply that leaves is the first
or the correction as a whole. So every answer that a model was called for passes the rules of its plan,
or is reported with both reasons against it. -/
theorem answers_vetted (w : World σ) :
    (∀ rules call first intent locale (s : Scene σ), ∃ acts,
      ((Answer.checked rules call first intent locale).run w s).2.acts = s.acts ++ acts ∧
      Answer.AskedOnce rules call first intent acts ∧
      (∀ c, ((Answer.checked rules call first intent locale).run w s).1 = some c →
        Answer.Outcome rules first intent acts c) ∧
      (((Answer.checked rules call first intent locale).run w s).1 = none →
        ∃ lapse outside, w.pass lapse outside = none)) ∧
    ∀ p listening turn (s : Scene σ) d plan call t response u,
      (brief p listening turn).run.run w s = (some (.ok (.call d plan call)), t) →
      (answer p listening turn).run.run w s = (some (.ok response), u) →
      response.trail.plan = some plan ∧ Vetted p.rules plan d.warnings response := by
  refine ⟨Answer.run_checked w, ?_⟩
  intro p listening turn s d plan call t response u hbrief hanswer
  have hplan : d.trail.plan = some plan := (brief_founded p listening turn).of_run hbrief
  rw [answer, Attempt.run_bind, hbrief] at hanswer
  obtain ⟨htrail, hvetted⟩ := (answerByModel_yields d plan call).of_run hanswer
  exact ⟨htrail.trans hplan, hvetted⟩

def echo : Reply := ⟨"The context_level is full.", "model", "", []⟩

def Briefing.isCall : Briefing → Bool
  | .reply _ => false
  | .call _ _ _ => true

theorem answers_vetted_echo :
    ∃ d plan call t response u,
      (brief .plain false (.plain "hi")).run.run (World.replying (fun _ => echo) [])
        ⟨(), .empty, []⟩ = (some (.ok (.call d plan call)), t) ∧
      (answer .plain false (.plain "hi")).run.run (World.replying (fun _ => echo) [])
        ⟨(), .empty, []⟩ = (some (.ok response), u) ∧
      response.trail.plan = some plan ∧ Vetted Answer.Rule.all plan d.warnings response := by
  obtain ⟨briefing, t, hbrief, hcall⟩ := Attempt.exists_of_run Briefing.isCall
    (x := brief .plain false (.plain "hi")) (w := World.replying (fun _ => echo) [])
    (s := ⟨(), .empty, []⟩) (by decide +kernel)
  obtain ⟨response, u, hanswer, _⟩ := Attempt.exists_of_run (fun _ => true)
    (x := answer .plain false (.plain "hi")) (w := World.replying (fun _ => echo) [])
    (s := ⟨(), .empty, []⟩) (by decide +kernel)
  cases briefing with
  | reply response => cases hcall
  | call d plan call =>
      have hvetted := (answers_vetted (World.replying (fun _ => echo) [])).2 _ _ _ _ _ _ _ _ _ _
        hbrief hanswer
      exact ⟨d, plan, call, t, response, u, hbrief, hanswer, hvetted⟩

end Consultation

end Advisor

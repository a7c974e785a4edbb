import Advisor.Consultation
import Advisor.Proofs.Consultation.Inquiries
import Advisor.Proofs.Stream.Relaying

namespace Advisor

open Dialogue

/-- The plan that a planner's reply brings, if it comes in time. -/
def Plan.Planner.planOf (planner : Planner) (turn : Turn) (intent : Intent) (arrival : Arrival Reply) :
    Except Failure Plan :=
  (arrival.limited (planner.call turn intent).timeoutMs).result.bind (planner.read turn intent)

def Plan.Planner.asked (planner : Planner) (turn : Turn) (intent : Intent) (arrival : Arrival Reply) :
    Act :=
  .asked (.completion (planner.call turn intent)) arrival

theorem Plan.course_forTurn {planner : Planner} {turn : Turn} {intent : Intent} {r : Option Planned}
    (h : Course (forTurn planner turn intent) acts r) :
    (asksModel turn intent = false ∧ acts = [] ∧
        r = some ((Planned.unasked intent).limitedTo turn)) ∨
      (asksModel turn intent ∧ ∃ arrival, acts = [planner.asked turn intent arrival] ∧
        ∀ planned, r = some planned →
          planned = (Planned.ofAnswer intent (planner.planOf turn intent arrival)).limitedTo turn) := by
  rw [forTurn] at h
  split at h
  · rename_i hasks
    refine .inr ⟨hasks, ?_⟩
    rcases course_bind h with ⟨reply, before, after, rfl, ha, hp⟩ | ⟨rfl, ha⟩
    · obtain ⟨arrival, rfl, he⟩ := course_askWithin ha
      obtain ⟨rfl, rfl⟩ := course_pure hp
      rcases he with he | he <;> cases he
      exact ⟨arrival, rfl, fun planned hr => (Option.some.inj hr).symm⟩
    · obtain ⟨arrival, rfl, _⟩ := course_askWithin ha
      exact ⟨arrival, rfl, by simp⟩
  · rename_i hasks
    obtain ⟨rfl, rfl⟩ := course_pure h
    exact .inl ⟨by simpa using hasks, rfl, rfl⟩

theorem Answer.course_checked {r : Option Checked}
    (h : Course (checked rules call first intent locale) acts r) :
    (refusal? rules intent first.answer = none ∧ acts = [] ∧ r = some ⟨first, [], false⟩) ∨
      ∃ reason arrival, refusal? rules intent first.answer = some reason ∧
        acts =
          [.asked (.completion (correctiveCall call first.answer reason intent locale)) arrival] ∧
        ∀ c, r = some c → c = .ofCorrection rules intent first reason arrival.result := by
  rw [checked] at h
  split at h
  · rename_i hpass
    obtain ⟨rfl, rfl⟩ := course_pure h
    exact .inl ⟨hpass, rfl, rfl⟩
  · rename_i reason hrefused
    rcases course_bind h with ⟨second, before, after, rfl, ha, hp⟩ | ⟨rfl, ha⟩
    · obtain ⟨arrival, rfl, he⟩ := course_await ha
      obtain ⟨rfl, rfl⟩ := course_pure hp
      rcases he with he | he <;> cases he
      exact .inr ⟨reason, arrival, hrefused, rfl, fun c hr => (Option.some.inj hr).symm⟩
    · obtain ⟨arrival, rfl, _⟩ := course_await ha
      exact .inr ⟨reason, arrival, hrefused, rfl, by simp⟩

theorem Answer.Checked.corrected_ofCorrection (rules : List Rule) (intent : Intent) (first : Reply)
    (reason : String) (second : Except Failure Reply) :
    (ofCorrection rules intent first reason second).corrected = true := by
  unfold ofCorrection
  cases second with
  | ok second =>
      simp only
      split <;> rfl
  | error e => rfl

theorem Answer.corrected_eq (h : Course (checked rules call first intent locale) acts (some c)) :
    c.corrected = (refusal? rules intent first.answer).isSome := by
  rcases course_checked h with ⟨hpass, _, he⟩ | ⟨reason, arrival, hrefused, _, hc⟩
  · cases he
    rw [hpass]
    rfl
  · rw [hrefused, hc c rfl, Checked.corrected_ofCorrection]
    rfl

theorem Preflight.check_fail_iff {plan : Plan} {context : Scan.Context} {wanted : Bool}
    {locale : Locale} :
    (check plan context wanted locale).status = .fail ↔ missingFields plan context ≠ [] := by
  rw [← List.isEmpty_eq_false_iff, ← Bool.not_eq_true']
  rw [check]
  simp only
  split
  · rename_i hmissing
    exact ⟨fun _ => hmissing, fun _ => rfl⟩
  · rename_i hmissing
    refine ⟨fun he => ?_, fun h => absurd h hmissing⟩
    split at he <;> cases he

def Turn.plain (message : String) : Turn where
  requestId := "request"
  provider := "openai"
  baseUrl := "https://api.openai.com/v1"
  apiKey := "key"
  model := "model"
  plannerModel := "model"
  temperature := ChatRequest.defaultTemperature
  maxTokens := ChatRequest.defaultMaxTokens
  assistantName := "Advisor"
  locale := .en
  userMessage := message
  enableWiki := true
  enableWeb := true
  enablePlanner := true
  wikiRepo := "wiki"
  history := []
  context := .empty

def Practice.plain : Practice where
  planner := .standard Timeouts.default.planner
  rules := Answer.Rule.all
  timeouts := .default
  library := ⟨false, false, Timeouts.default.webQuery⟩

namespace Consultation

/-- The check of a turn's scan for a plan, with what is known of the account. -/
def preflightOf (turn : Turn) (plan : Plan) (account : Account.View) : Preflight :=
  .check plan { turn.context.scopedTo plan with account }
    (Account.concerns plan.intent turn.userMessage) turn.locale

theorem preflightOf_fail_iff {account : Account.View} :
    (preflightOf turn plan account).status = .fail ↔
      Preflight.missingFields plan (turn.context.scopedTo plan) ≠ [] :=
  Preflight.check_fail_iff

theorem preflightOf_fails {view view' : Account.View}
    (h : (preflightOf turn plan view).status = .fail) : (preflightOf turn plan view').status = .fail :=
  preflightOf_fail_iff.2 (preflightOf_fail_iff.1 h)

def told (listening : Bool) (stage : Stream.Stage) : List Act :=
  if listening then [.sent stage.event true] else []

/-- A listening client is gone when it would be told of a stage. -/
def Unheard (listening : Bool) (stage : Stream.Stage) (acts : List Act)
    (r : Option (Except Failure β)) : Prop :=
  listening ∧ ((acts = [.sent stage.event false] ∧ r = some (.error .cancelled)) ∨
    (acts = [] ∧ r = none))

theorem course_report {f : Unit → Attempt β}
    (h : Course (report listening stage >>= f).run acts r) :
    (∃ rest, acts = told listening stage ++ rest ∧ Course (f ()).run rest r) ∨
      Unheard listening stage acts r := by
  cases listening with
  | false => exact .inl ⟨acts, rfl, h⟩
  | true =>
      rcases Attempt.course_send_bind h with ⟨rest, rfl, hf⟩ | hu | hu
      · exact .inl ⟨rest, rfl, hf⟩
      · exact .inr ⟨rfl, .inl hu⟩
      · exact .inr ⟨rfl, .inr hu⟩

theorem asks_accountFor (wanted : Bool) (own : Account.View) (locale : Locale) :
    (accountFor wanted own locale).Asks fun q => q.About .account ∧ wanted := by
  cases wanted with
  | false => exact asks_pure _
  | true => exact (Account.asks_lookup locale).mono fun q hq => ⟨hq, rfl⟩

/-! What each stage of a turn may do, as what it tells its client and the course of what it goes on
to. -/

theorem course_prepare {r : Option (Except Failure Plan.Planned)}
    (h : Course (prepare p listening turn).run acts r) :
    (∃ planning, acts = told listening .classify ++ (told listening .plan ++ planning) ∧
      ((∃ planned, r = some (.ok planned) ∧
          Course (Plan.forTurn p.planner turn turn.intent) planning (some planned)) ∨
        r = none ∧ Course (Plan.forTurn p.planner turn turn.intent) planning none)) ∨
      (∃ rest, acts = told listening .classify ++ rest ∧ Unheard listening .plan rest r) ∨
      Unheard listening .classify acts r := by
  rw [prepare] at h
  rcases course_report h with ⟨rest, rfl, hs⟩ | hu
  · rcases course_report hs with ⟨planning, rfl, hp⟩ | hu
    · exact .inl ⟨planning, rfl, Attempt.course_lift hp⟩
    · exact .inr (.inl ⟨rest, rfl, hu⟩)
  · exact .inr (.inr hu)

def answerBrief (turn : Turn) (plan : Plan) (view : Account.View) (found : Prompt.Findings) :
    Prompt.Brief where
  turn := turn
  plan := plan
  context := { turn.context.scopedTo plan with account := view }
  preflight := preflightOf turn plan view
  findings := found
  accountWanted := Account.concerns plan.intent turn.userMessage

def answerCall (p : Practice) (turn : Turn) (plan : Plan) (view : Account.View)
    (found : Prompt.Findings) : Call :=
  generationCall p turn (Prompt.messages (answerBrief turn plan view found))

theorem course_inform {view : Account.View}
    (hwanted : d.trail.accountWanted = Account.concerns plan.intent d.turn.userMessage)
    (h : Course (inform p listening d plan { d.turn.context.scopedTo plan with account := view }
      (preflightOf d.turn plan view)).run acts r) :
    (∃ rest, acts = told listening .retrieval ++ rest ∧
      ((∃ found before after, rest = before ++ after ∧
          Course (Knowledge.findings p.library plan d.turn) before (some found) ∧
          ((after = told listening .generation ∧
              r = some (.ok
                (.call (d.informed found) plan (answerCall p d.turn plan view found)))) ∨
            Unheard listening .generation after r)) ∨
        (r = none ∧ Course (Knowledge.findings p.library plan d.turn) rest none))) ∨
      Unheard listening .retrieval acts r := by
  unfold answerCall answerBrief
  rw [← hwanted]
  rw [inform] at h
  rcases course_report h with ⟨rest, rfl, hs⟩ | hu
  · refine .inl ⟨rest, rfl, ?_⟩
    rcases Attempt.course_lift_bind hs with ⟨found, before, after, rfl, hf, hg⟩ | hf
    · refine .inl ⟨found, before, after, rfl, hf, ?_⟩
      rcases course_report hg with ⟨rest, rfl, hp⟩ | hu
      · obtain ⟨rfl, hr⟩ := course_pure (a := Except.ok _) hp
        exact .inl ⟨by simp, hr⟩
      · exact .inr hu
    · exact .inr hf
  · exact .inr hu

def Draft.lookedAt (d : Draft) (plan : Plan) (account : Account.View) : Draft :=
  (d.acquainted (Account.concerns plan.intent d.turn.userMessage) account).preflighted
    (preflightOf d.turn plan account)

theorem course_check {d : Draft} {view : Account.View}
    (h : Course (check p listening
      (d.acquainted (Account.concerns plan.intent d.turn.userMessage) view) plan
      { d.turn.context.scopedTo plan with account := view }).run acts r) :
    (∃ rest, acts = told listening .preflight ++ rest ∧
      (((preflightOf d.turn plan view).status = .fail ∧ rest = [] ∧
          r = some (.ok (.reply ((d.lookedAt plan view).respondPlainly plan.intent
            ((preflightOf d.turn plan view).refusal d.turn.locale))))) ∨
        (preflightOf d.turn plan view).status ≠ .fail ∧
          Course (inform p listening (d.lookedAt plan view) plan
            { d.turn.context.scopedTo plan with account := view }
            (preflightOf d.turn plan view)).run rest r)) ∨
      Unheard listening .preflight acts r := by
  rw [check] at h
  rcases course_report h with ⟨rest, rfl, hs⟩ | hu
  · refine .inl ⟨rest, rfl, ?_⟩
    simp only at hs
    split at hs
    · rename_i hfail
      exact .inl ⟨hfail, course_pure hs⟩
    · rename_i hpass
      exact .inr ⟨hpass, hs⟩
  · exact .inr hu

theorem course_scope (h : Course (scope p listening d plan).run acts r) :
    (∃ rest, acts = told listening .context ++ rest ∧
      Joined (accountFor (Account.concerns plan.intent d.turn.userMessage)
          (d.turn.context.scopedTo plan).account d.turn.locale)
        (fun account => (check p listening
          (d.acquainted (Account.concerns plan.intent d.turn.userMessage) account) plan
          { d.turn.context.scopedTo plan with account }).run) rest r) ∨
      Unheard listening .context acts r := by
  rw [scope] at h
  rcases course_report h with ⟨rest, rfl, hs⟩ | hu
  · exact .inl ⟨rest, rfl, Attempt.course_lift_bind hs⟩
  · exact .inr hu

theorem course_followPlan (h : Course (followPlan p listening d plan).run acts r) :
    (∃ question, plan.question? = some question ∧ acts = [] ∧
        r = some (.ok (.reply (d.asking.respondPlainly plan.intent question)))) ∨
      plan.question? = none ∧ Course (scope p listening d plan).run acts r := by
  rw [followPlan] at h
  split at h
  · rename_i question hquestion
    exact .inl ⟨question, hquestion, course_pure h⟩
  · rename_i hnone
    exact .inr ⟨hnone, h⟩

theorem course_generate_listening (h : Course (generate p true call).run acts r) :
    ∃ arrival told,
      acts = .asked (.stream { call with timeoutMs := p.timeouts.stream }) arrival :: told ∧
      Stream.Relayed told ∧
      (r = some (.error .cancelled) → Stream.CallsOff arrival ∨ Stream.Missed told) := by
  rcases Attempt.course_within h with ⟨result, rfl, hs⟩ | ⟨hr, hs⟩
  · exact Stream.course_relayFor hs
  · obtain ⟨arrival, told, rfl, relayed, _⟩ := Stream.course_relayFor hs
    refine ⟨arrival, told, rfl, relayed, fun he => ?_⟩
    rcases hr with hr | hr <;> rw [hr] at he <;> cases he

theorem course_generate_silent (h : Course (generate p false call).run acts r) :
    ∃ arrival, acts = [.asked (.completion call) arrival] ∧ (r = some arrival.result ∨ r = none) :=
  Attempt.course_await h

theorem course_settle (h : Course (settle p listening d plan call first).run acts r) :
    (∃ rest, acts = (if (Answer.refusal? p.rules plan.intent first.answer).isSome then
          told listening .retry else []) ++ rest ∧
        Joined (Answer.checked p.rules call first plan.intent d.turn.locale) (fun c =>
          (pure ((d.checked c).respond plan.intent c.reply) : Attempt ChatResponse).run) rest r) ∨
      (Answer.refusal? p.rules plan.intent first.answer).isSome ∧
        Unheard listening .retry acts r := by
  rw [settle] at h
  split at h
  · rename_i hrefused
    rw [if_pos hrefused]
    rcases course_report h with ⟨rest, rfl, hs⟩ | hu
    · exact .inl ⟨rest, rfl, Attempt.course_lift_bind hs⟩
    · exact .inr ⟨hrefused, hu⟩
  · rename_i hpass
    rw [if_neg hpass]
    exact .inl ⟨acts, rfl, Attempt.course_lift_bind h⟩

theorem course_answerByModel (h : Course (answerByModel p listening d plan call).run acts r) :
    (∃ first before after, acts = before ++ after ∧
        Course (generate p listening call).run before (some (.ok first)) ∧
        Course (settle p listening d.called plan call first).run after r) ∨
      (∃ e, r = some (.error e) ∧ Course (generate p listening call).run acts (some (.error e))) ∨
      (r = none ∧ Course (generate p listening call).run acts none) :=
  Attempt.course_bind h

theorem Unheard.not_ok (h : Unheard listening stage acts (some (.ok b))) : False := by
  rcases h with ⟨_, ⟨_, he⟩ | ⟨_, he⟩⟩ <;> cases he

/-- What following a plan may come to: its question, a refusal, or a call for the answer. -/
inductive Followed (p : Practice) (d : Draft) (plan : Plan) : Briefing → Prop
  | question (asks : plan.question? = some question) :
      Followed p d plan (.reply (d.asking.respondPlainly plan.intent question))
  | refusal (account : Account.View) (answers : plan.question? = none)
      (fails : (preflightOf d.turn plan account).status = .fail) :
      Followed p d plan (.reply ((d.lookedAt plan account).respondPlainly plan.intent
        ((preflightOf d.turn plan account).refusal d.turn.locale)))
  | call (account : Account.View) (found : Prompt.Findings) (answers : plan.question? = none)
      (passes : (preflightOf d.turn plan account).status ≠ .fail) :
      Followed p d plan (.call ((d.lookedAt plan account).informed found) plan
        (answerCall p d.turn plan account found))

theorem course_check_ok {d : Draft} {view : Account.View}
    (h : Course (check p listening
      (d.acquainted (Account.concerns plan.intent d.turn.userMessage) view) plan
      { d.turn.context.scopedTo plan with account := view }).run acts (some (.ok briefing))) :
    ((preflightOf d.turn plan view).status = .fail ∧
        briefing = .reply ((d.lookedAt plan view).respondPlainly plan.intent
          ((preflightOf d.turn plan view).refusal d.turn.locale))) ∨
      (preflightOf d.turn plan view).status ≠ .fail ∧ ∃ found,
        briefing = .call ((d.lookedAt plan view).informed found) plan
          (answerCall p d.turn plan view found) := by
  rcases course_check h with ⟨_, _, ⟨hfails, _, he⟩ | ⟨hpasses, hi⟩⟩ | hu
  · cases he
    exact .inl ⟨hfails, rfl⟩
  · rcases course_inform rfl hi with ⟨_, _, ⟨found, _, _, _, _, hend⟩ | ⟨he, _⟩⟩ | hu
    · rcases hend with ⟨_, he⟩ | hu
      · cases he
        exact .inr ⟨hpasses, found, rfl⟩
      · exact hu.not_ok.elim
    · cases he
    · exact hu.not_ok.elim
  · exact hu.not_ok.elim

theorem course_followPlan_ok
    (h : Course (followPlan p listening d plan).run acts (some (.ok briefing))) :
    Followed p d plan briefing := by
  rcases course_followPlan h with ⟨question, hquestion, _, he⟩ | ⟨hanswers, hs⟩
  · cases he
    exact .question hquestion
  rcases course_scope hs with ⟨_, _, hj⟩ | hu
  · obtain ⟨account, _, _, _, _, hc⟩ := hj.of_some
    rcases course_check_ok hc with ⟨hfails, rfl⟩ | ⟨hpasses, found, rfl⟩
    · exact .refusal account hanswers hfails
    · exact .call account found hanswers hpasses
  · exact hu.not_ok.elim

/-- A property that an attempt has if the attempts have it that it is made of, those that ask nothing but
questions of a kind among them. -/
structure Composes (listening : Bool) (kind : Question → Prop)
    (P : (α : Type) → Attempt α → Prop) : Prop where
  pure : ∀ {α : Type} (a : α), P α (Pure.pure a)
  bind : ∀ {α β : Type} {x : Attempt α} {f : α → Attempt β},
    P α x → (∀ a, P β (f a)) → P β (x >>= f)
  lift : ∀ {α : Type} {d : Dialogue α}, d.Asks kind → P α (ExceptT.lift d)
  report : ∀ stage, P Unit (report listening stage)

section Composes

variable {listening : Bool} {P : (α : Type) → Attempt α → Prop}

theorem Composes.followPlan {kind : Question → Prop} (h : Composes listening kind P)
    (others : ∀ q, q.topic ≠ .model → kind q) (p : Practice) (d : Draft) (plan : Plan) :
    P Briefing (followPlan p listening d plan) := by
  have haccount (wanted : Bool) (own : Account.View) (locale : Locale) :
      (accountFor wanted own locale).Asks kind := by
    refine (asks_accountFor wanted own locale).mono fun q hq => others q ?_
    rw [hq.1]
    decide
  have hfindings : (Knowledge.findings p.library plan d.turn).Asks kind := by
    refine (Knowledge.asks_findings ..).mono fun q hq => others q ?_
    rcases hq with hq | hq <;> rw [hq] <;> decide
  unfold Consultation.followPlan
  split
  · exact h.pure _
  refine h.bind (h.report _) fun _ => h.bind (h.lift (haccount _ _ _)) fun account => ?_
  refine h.bind (h.report _) fun _ => ?_
  simp only
  split
  · exact h.pure _
  refine h.bind (h.report _) fun _ => h.bind (h.lift hfindings) fun found => ?_
  exact h.bind (h.report _) fun _ => h.pure _

variable (h : Composes listening (fun _ => True) P)

include h

theorem Composes.brief (p : Practice) (turn : Turn) : P Briefing (brief p listening turn) := by
  refine h.bind (h.bind (h.report _) fun _ => h.bind (h.report _) fun _ =>
    h.lift ((Plan.asks_forTurn ..).mono fun _ _ => trivial)) fun planned => ?_
  exact h.followPlan (fun _ _ => trivial) p _ _

theorem Composes.settle (p : Practice) (d : Draft) (plan : Plan) (call : Call) (first : Reply) :
    P ChatResponse (settle p listening d plan call first) := by
  have hasks : (Answer.checked p.rules call first plan.intent d.turn.locale).Asks fun _ => True :=
    (Answer.asks_checked _ _ 0 ..).mono fun _ _ => trivial
  have hchecked := h.bind (h.lift hasks) fun c =>
    h.pure ((d.checked c).respond plan.intent c.reply)
  unfold Consultation.settle
  split
  · exact h.bind (h.report _) fun _ => hchecked
  · exact hchecked

theorem Composes.answer {p : Practice} (hg : ∀ call, P Reply (generate p listening call))
    (turn : Turn) : P ChatResponse (answer p listening turn) := by
  refine h.bind (h.brief p turn) fun briefing => ?_
  cases briefing with
  | reply response => exact h.pure response
  | call d plan call => exact h.bind (hg call) fun first => h.settle p d.called plan call first

end Composes

theorem lastEvent?_eq_none (h : lastEvent? result = none) : result = .error .cancelled := by
  cases result with
  | ok response => cases h
  | error e =>
      cases e with
      | cancelled => rfl
      | _ => cases h

theorem course_stream (h : Course (stream p turn).run acts r) :
    (∃ result before after, acts = before ++ after ∧
        Course (answer p true turn).run before (some result) ∧
        ((result = .error .cancelled ∧ after = [] ∧ r = some (.error .cancelled)) ∨
          ∃ event, lastEvent? result = some event ∧ Course (Attempt.send event).run after r)) ∨
      (r = none ∧ Course (answer p true turn).run acts none) := by
  rw [stream] at h
  rcases Attempt.course_lift_bind h with ⟨result, before, after, rfl, ha, hlast⟩ | hnone
  · refine .inl ⟨result, before, after, rfl, ha, ?_⟩
    dsimp only at hlast
    split at hlast
    · rename_i event hevent
      exact .inr ⟨event, hevent, hlast⟩
    · rename_i hnone
      exact .inl ⟨lastEvent?_eq_none hnone, course_pure (a := Except.error _) hlast⟩
  · exact .inr hnone

theorem lastEvent?_error (kept : e ≠ .cancelled) :
    lastEvent? (.error e) = some (.error e.message 100) := by
  cases e with
  | cancelled => exact absurd rfl kept
  | _ => rfl

theorem stream_run {w : World σ} {s after : Scene σ}
    (hanswer : (answer p true turn).run.run w s = (some result, after))
    (hlast : lastEvent? result = some event)
    (hhear : w.hear event after.outside = some (true, outside)) :
    (stream p turn).run.run w s =
      (some (.ok ()), { after.act (.sent event true) with outside := outside }) := by
  rw [stream, ExceptT.run_bind_lift]
  change ((answer p true turn).run.bind _).run w s = _
  rw [Dialogue.run_bind, hanswer]
  simp only [hlast, Attempt.send, ExceptT.run_mk, Dialogue.run, hhear]
  rfl

theorem stream_acts (w : World σ) (p : Practice) (turn : Turn) (s : Scene σ) :
    ∃ told, ((stream p turn).run.run w s).2.acts = ((answer p true turn).run.run w s).2.acts ++ told ∧
      ∀ a ∈ told, ∃ event heard,
        ((answer p true turn).run.run w s).1.bind lastEvent? = some event ∧ a = .sent event heard := by
  rw [stream, ExceptT.run_bind_lift]
  change ∃ told, (((answer p true turn).run.bind _).run w s).2.acts = _ ∧ _
  rw [Dialogue.run_bind]
  rcases (answer p true turn).run.run w s with ⟨_ | result, after⟩
  · exact ⟨[], by simp, by simp⟩
  simp only
  cases hlast : lastEvent? result with
  | none => exact ⟨[], (List.append_nil _).symm, by simp⟩
  | some event =>
      obtain ⟨told, htold, hcourse, _⟩ := run_course w (Attempt.send event).run after
      refine ⟨told, htold, fun a ha => ?_⟩
      rcases Attempt.course_send hcourse with ⟨rfl, _⟩ | ⟨rfl, _⟩ | ⟨rfl, _⟩
      · exact ⟨event, true, hlast, List.mem_singleton.1 ha⟩
      · exact ⟨event, false, hlast, List.mem_singleton.1 ha⟩
      · cases ha

end Consultation

end Advisor

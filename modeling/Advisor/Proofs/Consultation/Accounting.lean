import Advisor.Proofs.Consultation.Narration
import Advisor.Proofs.Consultation.Validation

namespace Advisor

open Dialogue

def Act.isCall : Act → Bool
  | asked q _ => q.topic = .model
  | sent _ _ => false

/-- What was asked of models, with their answers. -/
def calls (acts : List Act) : List Act := acts.filter Act.isCall

theorem calls_append (before after : List Act) :
    calls (before ++ after) = calls before ++ calls after :=
  List.filter_append ..

theorem calls_stream (call : Call) (arrival : Arrival (List Stream.Signal))
    (acts : List Act) :
    calls (.asked (.stream call) arrival :: acts) = .asked (.stream call) arrival :: calls acts := rfl

theorem calls_eq_nil (h : ∀ a ∈ acts, a.isCall = false) : calls acts = [] := by
  rw [calls, List.filter_eq_nil_iff]
  intro a ha
  rw [h a ha]
  simp

theorem Stream.Relayed.calls_nil (h : Relayed acts) : calls acts = [] := by
  induction h with
  | nothing | usage => rfl
  | delta text pct heard rest ih => exact ih

namespace Plan

variable {planner : Planner} {turn : Turn} {intent : Intent}

/-- What a plan comes from: the calls made for it, and what they brought. -/
inductive PlannedBy (planner : Planner) (turn : Turn) (intent : Intent) :
    List Act → Planned → Prop
  | unasked : PlannedBy planner turn intent [] ((Planned.unasked intent).limitedTo turn)
  | asked (arrival : Arrival Reply) :
      PlannedBy planner turn intent [planner.asked turn intent arrival]
        ((Planned.ofAnswer intent (planner.planOf turn intent arrival)).limitedTo turn)

theorem forTurn_plannedBy (h : Course (forTurn planner turn intent) acts (some planned)) :
    PlannedBy planner turn intent (calls acts) planned := by
  rcases course_forTurn h with ⟨_, rfl, he⟩ | ⟨_, arrival, rfl, hplanned⟩
  · obtain rfl := Option.some.inj he
    exact .unasked
  · rw [hplanned planned rfl]
    exact .asked arrival

theorem PlannedBy.shape (h : PlannedBy planner turn intent planning planned) :
    planning = [] ∨ ∃ arrival, planning = [planner.asked turn intent arrival] := by
  cases h with
  | unasked => exact .inl rfl
  | asked arrival => exact .inr ⟨arrival, rfl⟩

theorem PlannedBy.counted (h : PlannedBy planner turn intent planning planned) :
    (if planned.modelCalled then 1 else 0) = planning.length := by
  cases h with
  | unasked => rfl
  | asked arrival => cases hplan : planner.planOf turn intent arrival <;> rfl

theorem PlannedBy.used (h : PlannedBy planner turn intent planning planned) :
    (planned.modelCalled && planned.warning.isNone) ↔
      ∃ arrival plan, planning = [planner.asked turn intent arrival] ∧
        planner.planOf turn intent arrival = .ok plan := by
  cases h with
  | unasked => simp [Planned.limitedTo, Planned.unasked]
  | asked arrival =>
      cases hplan : planner.planOf turn intent arrival with
      | ok plan => exact ⟨fun _ => ⟨arrival, plan, rfl, hplan⟩, fun _ => rfl⟩
      | error e =>
          refine ⟨fun h => (by cases h), ?_⟩
          rintro ⟨arrival', plan, he, hplan'⟩
          cases he
          rw [hplan] at hplan'
          cases hplan'

theorem question?_limitedTo (plan : Plan) (turn : Turn) :
    (plan.limitedTo turn).question? = plan.question? := by
  obtain ⟨intent, level, mode, wiki, web, asks, text, agents⟩ := plan
  cases intent <;> rfl

theorem question?_default (intent : Intent) : (default intent).question? = none := by
  cases intent <;> rfl

theorem PlannedBy.asks (h : PlannedBy planner turn intent planning planned)
    (hasks : planned.plan.question?.isSome) :
    ∃ arrival, planning = [planner.asked turn intent arrival] := by
  cases h with
  | unasked =>
      have hnone : ((default intent).limitedTo turn).question? = none := by
        rw [question?_limitedTo, question?_default]
      change ((default intent).limitedTo turn).question?.isSome at hasks
      rw [hnone] at hasks
      cases hasks
  | asked arrival => exact ⟨arrival, rfl⟩

end Plan

theorem Answer.calls_checked (h : Course (checked rules call first intent locale) acts (some c)) :
    calls acts = acts ∧ c.extraCalls = acts.length ∧ (acts = [] ∨ ∃ reason arrival, acts =
      [.asked (.completion (correctiveCall call first.answer reason intent locale)) arrival]) := by
  have hcounted := (course_outcome h).counted
  rcases course_checked h with ⟨_, rfl, _⟩ | ⟨reason, arrival, _, rfl, _⟩
  · exact ⟨rfl, hcounted, .inl rfl⟩
  · exact ⟨rfl, hcounted, .inr ⟨reason, arrival, rfl⟩⟩

theorem Answer.Checked.corrected_iff (c : Checked) (h : c.extraCalls = acts.length) :
    c.corrected ↔ acts ≠ [] := by
  rw [extraCalls] at h
  rw [← List.length_pos_iff]
  split at h
  · rename_i hcorrected
    exact ⟨fun _ => by omega, fun _ => hcorrected⟩
  · rename_i hfirst
    exact ⟨fun hcorrected => absurd hcorrected hfirst, fun hlong => by omega⟩

namespace Consultation

variable {p : Practice} {listening : Bool} {turn : Turn}

theorem calls_told (listening : Bool) (stage : Stream.Stage) :
    calls (told listening stage) = [] := by
  cases listening <;> rfl

theorem prepare_calls (h : Course (prepare p listening turn).run acts (some (.ok planned))) :
    Plan.PlannedBy p.planner turn turn.intent (calls acts) planned := by
  rcases course_prepare h with ⟨planning, rfl, hp⟩ | ⟨_, _, hu⟩ | hu
  · rcases hp with ⟨planned', he, hp⟩ | ⟨he, _⟩
    · cases he
      rw [calls_append, calls_append, calls_told, calls_told]
      exact Plan.forTurn_plannedBy hp
    · cases he
  · exact hu.not_ok.elim
  · exact hu.not_ok.elim

theorem spares_composes (listening : Bool) :
    Composes listening (fun q => q.topic ≠ .model) fun _ x => x.Does fun a => a.isCall = false where
  pure a := Attempt.does_pure a
  bind hx hf := hx.bind hf
  lift hd := Attempt.does_lift hd fun _ _ hq => by simpa [Act.isCall] using hq
  report stage := by
    unfold report
    split
    · exact Attempt.does_send fun _ => rfl
    · exact Attempt.does_pure ()

theorem followPlan_calls (h : Course (followPlan p listening d plan).run acts r) :
    calls acts = [] :=
  calls_eq_nil ((spares_composes listening).followPlan (fun _ hq => hq) p d plan acts r h)

/-- What a model is asked for an answer. One that a client listens to is streamed. -/
def generation (p : Practice) (listening : Bool) (call : Call) : Question :=
  if listening then .stream { call with timeoutMs := p.timeouts.stream } else .completion call

theorem generate_calls (h : Course (generate p listening call).run acts r) :
    ∃ arrival, calls acts = [.asked (generation p listening call) arrival] := by
  cases listening with
  | false =>
      obtain ⟨arrival, rfl, _⟩ := course_generate_silent h
      exact ⟨arrival, rfl⟩
  | true =>
      obtain ⟨arrival, told, rfl, relayed, _⟩ := course_generate_listening h
      refine ⟨arrival, ?_⟩
      rw [calls_stream, relayed.calls_nil]
      rfl

theorem settle_calls
    (h : Course (settle p listening d plan call first).run acts (some (.ok response))) :
    ∃ c, response = (d.checked c).respond plan.intent c.reply ∧
      c.extraCalls = (calls acts).length ∧
      (calls acts = [] ∨ ∃ reason arrival, calls acts = [.asked (.completion
        (Answer.correctiveCall call first.answer reason plan.intent d.turn.locale)) arrival]) := by
  have hannounced : calls (if (Answer.refusal? p.rules plan.intent first.answer).isSome then
      told listening .retry else []) = [] := by
    split
    · exact calls_told ..
    · rfl
  rcases course_settle h with ⟨rest, rfl, hj⟩ | ⟨_, hu⟩
  · obtain ⟨c, before, after, rfl, hc, hp⟩ := hj.of_some
    obtain ⟨rfl, he⟩ := course_pure (a := Except.ok _) hp
    cases he
    obtain ⟨hcalls, hcounted, hcorrective⟩ := Answer.calls_checked hc
    rw [calls_append, hannounced, List.append_nil, List.nil_append, hcalls]
    exact ⟨c, rfl, hcounted, hcorrective⟩
  · exact hu.not_ok.elim

/-- What models are asked once there is a plan: nothing, or the answer that the plan leads to, and then
perhaps its correction. -/
inductive AnswerCalls (p : Practice) (listening : Bool) (turn : Turn) (plan : Plan) :
    List Act → List Act → Prop
  | unasked : AnswerCalls p listening turn plan [] []
  | asked (view : Account.View) (found : Prompt.Findings) (hcall : call = answerCall p turn plan view found)
      (corrected : correcting = [] ∨ ∃ refused reason arrival, correcting = [.asked (.completion
        (Answer.correctiveCall call refused reason plan.intent turn.locale)) arrival]) :
      AnswerCalls p listening turn plan [.asked (generation p listening call) arrival] correcting

/-- The calls of models for a turn: for its plan, for its answer, and for a correction of that. -/
structure Bill where
  planning : List Act
  answering : List Act
  correcting : List Act

namespace Bill

def all (b : Bill) : List Act := b.planning ++ b.answering ++ b.correcting

/-- How the calls of a run come about. Those for the plan are the ones that the run makes before it has a
plan, and no others. -/
structure Of (w : World σ) (p : Practice) (listening : Bool) (turn : Turn) (s : Scene σ) (b : Bill)
    (t : Trail) : Prop where
  preparing : ∃ acts, ((prepare p listening turn).run.run w s).2.acts = s.acts ++ acts ∧
    b.planning = calls acts
  planning : b.planning = [] ∨ ∃ arrival, b.planning = [p.planner.asked turn turn.intent arrival]
  answering : ∃ plan, t.plan = some plan ∧
    AnswerCalls p listening turn plan b.answering b.correcting

/-- What a trail says of the calls is so. -/
structure Told (p : Practice) (turn : Turn) (b : Bill) (t : Trail) : Prop where
  counted : t.modelCalls = b.all.length
  used : t.plannerUsed ↔ ∃ arrival plan, b.planning = [p.planner.asked turn turn.intent arrival] ∧
    p.planner.planOf turn turn.intent arrival = .ok plan
  retried : t.retried ↔ b.correcting ≠ []
  clarified : t.clarification → ∃ arrival, b.all = [p.planner.asked turn turn.intent arrival]
  refused : ∀ preflight, t.preflight = some preflight → preflight.status = .fail →
    b.all = b.planning

theorem Of.few {w : World σ} {s : Scene σ} {b : Bill} (h : b.Of w p listening turn s t) :
    b.all.length ≤ 3 := by
  have hplanning : b.planning.length ≤ 1 := by
    rcases h.planning with he | ⟨_, he⟩ <;> simp [he]
  have hrest : b.answering.length + b.correcting.length ≤ 2 := by
    obtain ⟨plan, _, hanswering⟩ := h.answering
    generalize b.answering = answering at hanswering
    generalize b.correcting = correcting at hanswering
    cases hanswering with
    | unasked => simp
    | asked view found hcall corrected => rcases corrected with rfl | ⟨_, _, _, rfl⟩ <;> simp
  rw [all, List.length_append, List.length_append]
  omega

end Bill

namespace Briefing

def trail : Briefing → Trail
  | reply response => response.trail
  | call d _ _ => d.trail

end Briefing

theorem Followed.trail (h : Followed p d plan briefing) :
    briefing.trail.modelCalls = d.trail.modelCalls ∧
      briefing.trail.plannerUsed = d.trail.plannerUsed ∧
      briefing.trail.retried = d.trail.retried := by
  cases h with
  | question | refusal | call => exact ⟨rfl, rfl, rfl⟩

theorem Followed.clarified (h : Followed p d plan briefing) (hfresh : d.trail.clarification = false)
    (hclarified : briefing.trail.clarification) : plan.question?.isSome := by
  cases h with
  | question asks =>
      rw [asks]
      rfl
  | refusal | call =>
      change d.trail.clarification at hclarified
      rw [hfresh] at hclarified
      cases hclarified

theorem Followed.told (h : Followed p ((Draft.start turn).planned planned) planned.plan briefing)
    (hplanned : Plan.PlannedBy p.planner turn turn.intent planning planned) :
    (Bill.mk planning [] []).Told p turn briefing.trail := by
  obtain ⟨hcount, hused, hretried⟩ := h.trail
  constructor
  · rw [hcount, Bill.all, List.append_nil, List.append_nil]
    exact hplanned.counted
  · rw [hused]
    exact hplanned.used
  · rw [hretried]
    exact ⟨fun h => (by cases h), fun h => absurd rfl h⟩
  · intro hclarified
    rw [Bill.all, List.append_nil, List.append_nil]
    exact hplanned.asks (h.clarified rfl hclarified)
  · intro _ _ _
    rw [Bill.all, List.append_nil, List.append_nil]

theorem Followed.follows (h : Followed p d plan briefing) : briefing.trail.plan = d.trail.plan := by
  cases h with
  | question | refusal | call => rfl

/-- A draft that is to be answered by a model: nothing has been asked back or refused. -/
structure Bound (p : Practice) (turn : Turn) (d : Draft) (plan : Plan) (call : Call) : Prop where
  own : d.turn = turn
  follows : d.trail.plan = some plan
  asks : ∃ view found, call = answerCall p turn plan view found
  fresh : d.trail.clarification = false
  passes : ∃ preflight, d.trail.preflight = some preflight ∧ preflight.status ≠ .fail

variable {w : World σ} {s t u : Scene σ}

theorem brief_calls (h : (brief p listening turn).run.run w s = (some (.ok briefing), t)) :
    ∃ acts, t.acts = s.acts ++ acts ∧
      (Bill.mk (calls acts) [] []).Of w p listening turn s briefing.trail ∧
      (Bill.mk (calls acts) [] []).Told p turn briefing.trail ∧
      ∀ d plan call, briefing = .call d plan call → Bound p turn d plan call := by
  obtain ⟨planned, between, hprepare, hfollow⟩ := Attempt.run_bind_ok h
  obtain ⟨preparing, hpreparing, hp, _⟩ := run_course w (prepare p listening turn).run s
  obtain ⟨following, hfollowing, hf, _⟩ := run_course w
    (followPlan p listening ((Draft.start turn).planned planned) planned.plan).run between
  have hprepared := hpreparing
  rw [hprepare] at hprepared hp
  rw [hfollow] at hfollowing hf
  have hplanned := prepare_calls hp
  have hfollowed := course_followPlan_ok hf
  have hcalls : calls (preparing ++ following) = calls preparing := by
    rw [calls_append, followPlan_calls hf, List.append_nil]
  refine ⟨preparing ++ following, by rw [hfollowing, hprepared, List.append_assoc], ?_⟩
  rw [hcalls]
  refine ⟨⟨⟨preparing, hpreparing, rfl⟩, hplanned.shape, planned.plan, hfollowed.follows, .unasked⟩,
    hfollowed.told hplanned, ?_⟩
  rintro d plan call rfl
  cases hfollowed with
  | call account found answers passes =>
      exact ⟨rfl, rfl, ⟨account, found, rfl⟩, rfl, _, rfl, passes⟩

theorem answerByModel_told (hof : (Bill.mk planning [] []).Of w p listening turn s d.trail)
    (htold : (Bill.mk planning [] []).Told p turn d.trail) (hbound : Bound p turn d plan call)
    (h : Course (answerByModel p listening d plan call).run acts (some (.ok response))) :
    ∃ answering correcting, calls acts = answering ++ correcting ∧
      (Bill.mk planning answering correcting).Of w p listening turn s response.trail ∧
      (Bill.mk planning answering correcting).Told p turn response.trail := by
  obtain ⟨first, before, after, rfl, hg, hs⟩ := Attempt.course_bind_ok h
  obtain ⟨arrival, hanswering⟩ := generate_calls hg
  obtain ⟨c, rfl, hcounted, hcorrecting⟩ := settle_calls hs
  refine ⟨calls before, calls after, calls_append .., ?_, ?_⟩
  · obtain ⟨view, found, hcall⟩ := hbound.asks
    refine ⟨hof.preparing, hof.planning, plan, hbound.follows, ?_⟩
    rw [hanswering]
    refine .asked view found hcall (hcorrecting.imp_right ?_)
    rintro ⟨reason, arrival', hone⟩
    exact ⟨first.answer, reason, arrival', hbound.own ▸ hone⟩
  · have hplanning : d.trail.modelCalls = planning.length :=
      htold.counted.trans (by simp [Bill.all])
    constructor
    · change d.trail.modelCalls + 1 + c.extraCalls = _
      rw [hplanning, hcounted, Bill.all, hanswering, List.length_append, List.length_append]
      rfl
    · exact htold.used
    · exact c.corrected_iff hcounted
    · intro hclarified
      change d.trail.clarification at hclarified
      rw [hbound.fresh] at hclarified
      cases hclarified
    · intro preflight hpreflight hfails
      obtain ⟨checked, hchecked, hok⟩ := hbound.passes
      obtain rfl : checked = preflight := Option.some.inj (hchecked.symm.trans hpreflight)
      exact absurd hfails hok

theorem answer_calls (h : (answer p listening turn).run.run w s = (some (.ok response), u)) :
    ∃ acts, ∃ b : Bill, u.acts = s.acts ++ acts ∧ calls acts = b.all ∧
      b.Of w p listening turn s response.trail ∧ b.Told p turn response.trail := by
  obtain ⟨briefing, t, hbrief, hconclude⟩ := Attempt.run_bind_ok h
  obtain ⟨before, hbefore, hof, htold, hbound⟩ := brief_calls hbrief
  obtain ⟨after, hafter, hc, _⟩ := run_course w (conclude p listening briefing).run t
  rw [hconclude] at hafter hc
  have hacts : u.acts = s.acts ++ (before ++ after) := by
    rw [hafter, hbefore, List.append_assoc]
  cases briefing with
  | reply made =>
      obtain ⟨rfl, he⟩ := course_pure (a := Except.ok _) hc
      cases he
      refine ⟨_, ⟨calls before, [], []⟩, hacts, ?_, hof, htold⟩
      simp [Bill.all]
  | call d plan call =>
      obtain ⟨answering, correcting, hcalls, hof, htold⟩ :=
        answerByModel_told hof htold (hbound d plan call rfl) hc
      refine ⟨_, ⟨calls before, answering, correcting⟩, hacts, ?_, hof, htold⟩
      rw [calls_append, hcalls, Bill.all, List.append_assoc]

theorem stream_result {heard : Bool}
    (hacts : ((stream p turn).run.run w s).2.acts = s.acts ++ acts)
    (hsent : .sent (.result response pct) heard ∈ acts) :
    ∃ before t, (answer p true turn).run.run w s = (some (.ok response), t) ∧
      t.acts = s.acts ++ before ∧ calls acts = calls before := by
  obtain ⟨before, hbefore, hcourse, _⟩ := run_course w (answer p true turn).run s
  obtain ⟨told, htold, hlast⟩ := stream_acts w p turn s
  have hall : acts = before ++ told := by
    rw [htold, hbefore, List.append_assoc] at hacts
    exact (List.append_cancel_left hacts).symm
  have hmem : .sent (.result response pct) heard ∈ told := by
    rw [hall] at hsent
    refine (List.mem_append.1 hsent).resolve_left fun hmem => ?_
    have hopen := answer_open p true turn before _ hcourse _ hmem
    cases hopen
  obtain ⟨event, heard', hevent, he⟩ := hlast _ hmem
  cases he
  obtain ⟨result, hresult, hends⟩ := Option.bind_eq_some_iff.1 hevent
  rw [eq_ok_of_lastEvent? hends] at hresult
  refine ⟨before, _, Prod.ext hresult rfl, hbefore, ?_⟩
  have hnone : calls told = [] := calls_eq_nil fun a ha => by
    obtain ⟨event, heard, _, rfl⟩ := hlast a ha
    rfl
  rw [hall, calls_append, hnone, List.append_nil]

/-- The trail of every response tells exactly of the calls of models that were made for it. So it is with
every answer, and with every response that a listening client is sent. -/
theorem calls_billed (w : World σ) (p : Practice) (turn : Turn) (s : Scene σ) :
    (∀ listening response t,
      (answer p listening turn).run.run w s = (some (.ok response), t) →
      ∃ acts, ∃ b : Bill, t.acts = s.acts ++ acts ∧ calls acts = b.all ∧
        b.Of w p listening turn s response.trail ∧ b.Told p turn response.trail ∧
        response.trail.modelCalls ≤ 3) ∧
    ∃ acts, ((stream p turn).run.run w s).2.acts = s.acts ++ acts ∧
      ∀ response pct heard, .sent (.result response pct) heard ∈ acts →
        ∃ b : Bill, calls acts = b.all ∧ b.Of w p true turn s response.trail ∧
          b.Told p turn response.trail ∧ response.trail.modelCalls ≤ 3 := by
  constructor
  · intro listening response t hrun
    obtain ⟨acts, b, hacts, hcalls, hof, htold⟩ := answer_calls hrun
    refine ⟨acts, b, hacts, hcalls, hof, htold, ?_⟩
    rw [htold.counted]
    exact hof.few
  · obtain ⟨acts, hacts, _⟩ := run_course w (stream p turn).run s
    refine ⟨acts, hacts, fun response pct heard hsent => ?_⟩
    obtain ⟨before, t, hrun, hbefore, hsame⟩ := stream_result hacts hsent
    obtain ⟨before', b, hbefore', hcalls, hof, htold⟩ := answer_calls hrun
    obtain rfl : before = before' := List.append_cancel_left (hbefore.symm.trans hbefore')
    refine ⟨b, hsame.trans hcalls, hof, htold, ?_⟩
    rw [htold.counted]
    exact hof.few

theorem calls_billed_echo :
    ∃ response t, ∃ b : Bill,
      (answer .plain false (.plain "tell me about the weather")).run.run
        (World.replying (fun _ => echo) []) ⟨(), .empty, []⟩ = (some (.ok response), t) ∧
      calls t.acts = b.all ∧ b.Told .plain (.plain "tell me about the weather") response.trail ∧
      b.all.length = 3 ∧ b.correcting ≠ [] := by
  obtain ⟨response, t, hrun, hholds⟩ := Attempt.exists_of_run
    (fun response => response.trail.modelCalls == 3 && response.trail.retried)
    (x := answer .plain false (.plain "tell me about the weather"))
    (w := World.replying (fun _ => echo) []) (s := ⟨(), .empty, []⟩) (by decide +kernel)
  obtain ⟨hthree, hretried⟩ := Bool.and_eq_true_iff.1 hholds
  obtain ⟨acts, b, hacts, hcalls, _, htold, _⟩ :=
    (calls_billed (World.replying (fun _ => echo) []) .plain (.plain "tell me about the weather")
      ⟨(), .empty, []⟩).1 false response t hrun
  refine ⟨response, t, b, hrun, ?_, htold, ?_, htold.retried.1 hretried⟩
  · rw [hacts]
    exact hcalls
  · rw [← htold.counted]
    exact eq_of_beq hthree

end Consultation

end Advisor

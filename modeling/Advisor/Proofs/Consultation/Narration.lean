import Advisor.Proofs.Consultation.Stages
import Advisor.Proofs.Dialogue.Yielding

namespace Advisor

open Dialogue Advisor.Stream

namespace Stream

/-- Nothing ends a turn from outside: what is sent is heard, and no stream is called off. -/
structure Undisturbed (acts : List Act) : Prop where
  heard : ¬ Missed acts
  kept : ∀ call arrival, .asked (.stream call) arrival ∈ acts → ¬ CallsOff arrival

theorem Undisturbed.later {before after : List Act} (h : Undisturbed (before ++ after)) :
    Undisturbed after where
  heard hm := h.heard (hm.later before)
  kept call arrival ha := h.kept call arrival (List.mem_append_right before ha)

def Event.ends : Event → Bool
  | result _ _ | error _ _ => true
  | progress _ _ | delta _ _ | usage _ _ => false

end Stream

namespace Consultation

/-- What a listening client is told of a turn: that a question is put back, that the scan does not
carry an answer, or that a model is asked, which fails or answers. -/
inductive Transcript
  | question (response : ChatResponse)
  | refusal (response : ChatResponse)
  | failure (deltas : List (String × Nat)) (usage : Option Json.Fields) (text : String)
  | answer (deltas : List (String × Nat)) (usage : Option Json.Fields) (response : ChatResponse)

namespace Transcript

def planning : List Event := [.progress "classify" 5, .progress "plan" 15]

def checking : List Event := planning ++ [.progress "context" 25, .progress "preflight" 32]

def generating : List Event := checking ++ [.progress "retrieval" 38, .progress "generation" 45]

def retrying (response : ChatResponse) : List Event :=
  if response.trail.retried then [.progress "retry" 97] else []

def opening : Transcript → List Event
  | question _ => planning
  | refusal _ => checking
  | failure deltas usage _ => generating ++ relayEvents deltas usage
  | answer deltas usage response => generating ++ relayEvents deltas usage ++ retrying response

def last : Transcript → Event
  | question response | refusal response | answer _ _ response => .result response 100
  | failure _ _ text => .error text 100

def events (t : Transcript) : List Event := t.opening ++ [t.last]

def response? : Transcript → Option ChatResponse
  | question response | refusal response | answer _ _ response => some response
  | failure _ _ _ => none

def isQuestion : Transcript → Bool
  | question _ => true
  | _ => false

def isRefusal : Transcript → Bool
  | refusal _ => true
  | _ => false

theorem last_ends (t : Transcript) : t.last.ends := by
  cases t <;> rfl

theorem relayEvents_open (deltas : List (String × Nat)) (usage : Option Json.Fields) :
    ∀ e ∈ relayEvents deltas usage, e.ends = false ∧ e ≠ .progress "retry" 97 := by
  intro e he
  rcases List.mem_append.1 he with he | he
  · obtain ⟨d, _, rfl⟩ := List.mem_map.1 he
    exact ⟨rfl, by simp⟩
  · cases usage with
    | none => simp at he
    | some u =>
        obtain rfl : e = .usage u usagePct := by simpa using he
        exact ⟨rfl, by simp⟩

theorem generating_open : ∀ e ∈ generating, e.ends = false ∧ e ≠ .progress "retry" 97 := by
  simp [generating, checking, planning, Event.ends]

theorem opening_open (t : Transcript) : ∀ e ∈ t.opening, e.ends = false := by
  intro e he
  cases t with
  | question response => exact (generating_open e (by simp_all [opening, generating, checking])).1
  | refusal response => exact (generating_open e (by simp_all [opening, generating])).1
  | failure deltas usage text =>
      rcases List.mem_append.1 he with he | he
      · exact (generating_open e he).1
      · exact (relayEvents_open deltas usage e he).1
  | answer deltas usage response =>
      rcases List.mem_append.1 he with he | he
      · rcases List.mem_append.1 he with he | he
        · exact (generating_open e he).1
        · exact (relayEvents_open deltas usage e he).1
      · unfold retrying at he
        split at he
        · obtain rfl : e = .progress "retry" 97 := by simpa using he
          rfl
        · simp at he

theorem last_or_opening (t : Transcript) {before after : List Event}
    (h : t.events = before ++ e :: after) :
    (before = t.opening ∧ e = t.last ∧ after = []) ∨ (e ∈ t.opening ∧ after ≠ []) := by
  rcases List.append_eq_append_iff.1 h with ⟨rest, hbefore, hlast⟩ | ⟨rest, hopening, hlast⟩
  · cases rest with
    | nil =>
        rw [List.append_nil] at hbefore
        obtain ⟨rfl, rfl⟩ := List.cons.inj hlast
        exact .inl ⟨hbefore, rfl, rfl⟩
    | cons first rest => simp at hlast
  · cases rest with
    | nil =>
        rw [List.append_nil] at hopening
        obtain ⟨rfl, rfl⟩ := List.cons.inj hlast
        exact .inl ⟨hopening.symm, rfl, rfl⟩
    | cons first rest =>
        obtain ⟨rfl, rfl⟩ := List.cons.inj hlast
        refine .inr ⟨?_, by simp⟩
        rw [hopening]
        exact List.mem_append_right before (List.mem_cons_self ..)

theorem ends_iff (t : Transcript) {before after : List Event}
    (h : t.events = before ++ e :: after) :
    e.ends ↔ after = [] := by
  rcases t.last_or_opening h with ⟨_, rfl, rfl⟩ | ⟨he, hne⟩
  · exact ⟨fun _ => rfl, fun _ => t.last_ends⟩
  · rw [t.opening_open e he]
    exact ⟨fun h => absurd h (by simp), fun h => absurd h hne⟩

theorem generation_mem (t : Transcript) {before after : List Event}
    (h : t.events = before ++ .error text pct :: after) : .progress "generation" 45 ∈ before := by
  rcases t.last_or_opening h with ⟨rfl, hlast, _⟩ | ⟨he, _⟩
  · cases t with
    | question response | refusal response => cases hlast
    | failure deltas usage text => simp [opening, generating]
    | answer deltas usage response => cases hlast
  · have := t.opening_open _ he
    cases this

theorem retry_mem (t : Transcript) : .progress "retry" 97 ∈ t.events ↔
    ∃ deltas usage response, t = answer deltas usage response ∧ response.trail.retried := by
  have hrelay (deltas : List (String × Nat)) (usage : Option Json.Fields) :
      .progress "retry" 97 ∉ generating ++ relayEvents deltas usage := by
    intro he
    rcases List.mem_append.1 he with he | he
    · exact (generating_open _ he).2 rfl
    · exact (relayEvents_open deltas usage _ he).2 rfl
  cases t with
  | question response => simp [events, opening, planning, last]
  | refusal response => simp [events, opening, checking, planning, last]
  | failure deltas usage text => simpa [events, opening, last] using hrelay deltas usage
  | answer deltas usage response =>
      have hretry : .progress "retry" 97 ∈ retrying response ↔ response.trail.retried := by
        rw [retrying]
        split <;> simp_all
      have hlast : .progress "retry" 97 ∉ [last (answer deltas usage response)] := by simp [last]
      rw [events, opening, List.mem_append, List.mem_append, hretry]
      constructor
      · rintro ((he | he) | he)
        · exact absurd he (hrelay deltas usage)
        · exact ⟨deltas, usage, response, rfl, he⟩
        · exact absurd he hlast
      · rintro ⟨_, _, _, he, hretried⟩
        cases he
        exact .inl (.inr hretried)

end Transcript

theorem not_unheard (hu : Undisturbed acts) {result : Except Failure β} :
    ¬ Unheard true stage acts (some result) := by
  rintro ⟨_, ⟨rfl, _⟩ | ⟨_, he⟩⟩
  · exact hu.heard ⟨_, List.mem_singleton.2 rfl⟩
  · cases he

theorem told_or {P : List Act → Prop} {result : Except Failure β} (hu : Undisturbed acts)
    (h : (∃ rest, acts = told true stage ++ rest ∧ P rest) ∨
      Unheard true stage acts (some result)) :
    ∃ rest, acts.filterMap Act.heard? = stage.event :: rest.filterMap Act.heard? ∧
      Undisturbed rest ∧
      P rest := by
  rcases h with ⟨rest, rfl, hp⟩ | h
  · exact ⟨rest, rfl, hu.later, hp⟩
  · exact absurd h (not_unheard hu)

theorem joined_unheard {d : Dialogue α} {f : α → Dialogue β} {kind : Question → Prop}
    (hd : d.Asks kind) (hu : Undisturbed acts) (h : Joined d f acts (some b)) :
    ∃ a before after, acts.filterMap Act.heard? = after.filterMap Act.heard? ∧ Undisturbed after ∧
      Course d before (some a) ∧ Course (f a) after (some b) := by
  obtain ⟨a, before, after, rfl, hb, hf⟩ := h.of_some
  refine ⟨a, before, after, ?_, hu.later, hb, hf⟩
  rw [List.filterMap_append, hd.unheard hb, List.nil_append]

def epilogue : Except Failure ChatResponse → List Event
  | .ok response => Transcript.retrying response
  | .error _ => []

def Follows (d : Draft) (response : ChatResponse) : Prop :=
  response.trail.plan = d.trail.plan ∧ response.trail.preflight = d.trail.preflight

theorem settle_heard (hu : Undisturbed acts)
    (h : Course (settle p true d plan call first).run acts (some result)) :
    ∃ response, result = .ok response ∧ Follows d response ∧
      acts.filterMap Act.heard? = Transcript.retrying response := by
  have answered {acts : List Act} (hu : Undisturbed acts)
      (h : Joined (Answer.checked p.rules call first plan.intent d.turn.locale)
        (fun c => (pure ((d.checked c).respond plan.intent c.reply) : Attempt ChatResponse).run)
        acts (some result)) :
      ∃ response, result = .ok response ∧ Follows d response ∧ acts.filterMap Act.heard? = [] ∧
        response.trail.retried = (Answer.refusal? p.rules plan.intent first.answer).isSome := by
    obtain ⟨c, before, after, hheard, _, hc, hp⟩ :=
      joined_unheard (Answer.asks_checked _ _ 0 ..) hu h
    obtain ⟨rfl, hresult⟩ := course_pure (a := Except.ok _) hp
    exact ⟨_, Option.some.inj hresult, ⟨rfl, rfl⟩, hheard, Answer.corrected_eq hc⟩
  rcases course_settle h with ⟨rest, rfl, hj⟩ | ⟨_, hunheard⟩
  · obtain ⟨response, rfl, hfollows, hheard, hretried⟩ := answered hu.later hj
    refine ⟨response, rfl, hfollows, ?_⟩
    rw [List.filterMap_append, hheard, List.append_nil, Transcript.retrying, hretried]
    split <;> rfl
  · exact absurd hunheard (not_unheard hu)

theorem answerByModel_heard (hu : Undisturbed acts)
    (h : Course (answerByModel p true d plan call).run acts (some result)) :
    (∃ deltas usage, acts.filterMap Act.heard? = relayEvents deltas usage ++ epilogue result) ∧
      result ≠ .error .cancelled ∧ ∀ response, result = .ok response → Follows d response := by
  rcases course_answerByModel h with
    ⟨first, before, after, rfl, hg, hs⟩ | ⟨e, hresult, hg⟩ | ⟨he, _⟩
  · obtain ⟨arrival, told, rfl, relayed, _⟩ := course_generate_listening hg
    obtain ⟨response, rfl, hfollows, hafter⟩ := settle_heard hu.later hs
    obtain ⟨deltas, usage, hevents⟩ := relayed.events
    refine ⟨⟨deltas, usage, ?_⟩, by simp, fun _ he => by cases he; exact hfollows⟩
    rw [List.filterMap_append, List.filterMap_cons_none rfl, hevents, hafter]
    rfl
  · obtain ⟨arrival, told, rfl, relayed, called⟩ := course_generate_listening hg
    obtain ⟨deltas, usage, hevents⟩ := relayed.events
    obtain rfl : result = .error e := Option.some.inj hresult
    refine ⟨⟨deltas, usage, ?_⟩, ?_, by simp⟩
    · rw [List.filterMap_cons_none rfl, hevents, epilogue, List.append_nil]
    · intro he
      cases he
      rcases called rfl with hoff | hmissed
      · exact hu.kept _ arrival (List.mem_cons_self ..) hoff
      · exact hu.heard (hmissed.later [_])
  · cases he

/-- What has been told when a briefing is there that follows a plan. -/
inductive Briefed (turn : Turn) (plan : Plan) : Briefing → List Event → Prop
  | question (asks : plan.question?.isSome) (first : response.trail.retried = false)
      (follows : response.trail.plan = some plan) :
      Briefed turn plan (.reply response) Transcript.planning
  | refusal (answers : plan.question? = none) (account : Account.View)
      (fails : (preflightOf turn plan account).status = .fail)
      (first : response.trail.retried = false)
      (follows : response.trail.plan = some plan)
      (checked : response.trail.preflight = some (preflightOf turn plan account)) :
      Briefed turn plan (.reply response) Transcript.checking
  | call (answers : plan.question? = none) (account : Account.View)
      (passes : (preflightOf turn plan account).status ≠ .fail)
      (follows : d.trail.plan = some plan)
      (checked : d.trail.preflight = some (preflightOf turn plan account)) :
      Briefed turn plan (.call d plan call) Transcript.generating

theorem inform_heard {view : Account.View} (hu : Undisturbed acts)
    (hwanted : d.trail.accountWanted = Account.concerns plan.intent d.turn.userMessage)
    (h : Course (inform p true d plan { d.turn.context.scopedTo plan with account := view }
      (preflightOf d.turn plan view)).run acts (some result)) :
    acts.filterMap Act.heard? = [Stage.retrieval.event, Stage.generation.event] ∧
      ∃ found call, result = .ok (.call (d.informed found) plan call) := by
  obtain ⟨rest, hheard, hu, hfound⟩ := told_or hu (course_inform hwanted h)
  rcases hfound with ⟨found, before, after, rfl, hf, ⟨rfl, hr⟩ | hunheard⟩ | ⟨he, _⟩
  · refine ⟨?_, found, _, Option.some.inj hr⟩
    rw [hheard, List.filterMap_append, (Knowledge.asks_findings ..).unheard hf]
    rfl
  · exact absurd hunheard (not_unheard hu.later)
  · cases he

theorem scope_heard (hu : Undisturbed acts) (hanswers : plan.question? = none)
    (hplan : d.trail.plan = some plan) (hfirst : d.trail.retried = false)
    (h : Course (scope p true d plan).run acts (some result)) :
    ∃ briefing, result = .ok briefing ∧
      Briefed d.turn plan briefing (Transcript.planning ++ acts.filterMap Act.heard?) := by
  obtain ⟨rest, hheard, hu, hj⟩ := told_or hu (course_scope h)
  obtain ⟨account, before, after, hrest, hu, _, hc⟩ := joined_unheard (asks_accountFor ..) hu hj
  obtain ⟨rest', hheard', hu, hcheck⟩ := told_or hu (course_check hc)
  rw [hheard, hrest, hheard']
  rcases hcheck with ⟨hfails, rfl, hresult⟩ | ⟨hpasses, hi⟩
  · exact ⟨_, Option.some.inj hresult, .refusal hanswers account hfails hfirst hplan rfl⟩
  · obtain ⟨hinformed, found, call, rfl⟩ := inform_heard hu rfl hi
    rw [hinformed]
    exact ⟨_, rfl, .call hanswers account hpasses hplan rfl⟩

theorem followPlan_heard (hu : Undisturbed acts) (hplan : d.trail.plan = some plan)
    (hfirst : d.trail.retried = false)
    (h : Course (followPlan p true d plan).run acts (some result)) :
    ∃ briefing, result = .ok briefing ∧
      Briefed d.turn plan briefing (Transcript.planning ++ acts.filterMap Act.heard?) := by
  rcases course_followPlan h with ⟨question, hquestion, rfl, hresult⟩ | ⟨hanswers, hp⟩
  · refine ⟨_, Option.some.inj hresult, .question ?_ hfirst hplan⟩
    rw [hquestion]
    rfl
  · exact scope_heard hu hanswers hplan hfirst hp

/-- The transcript of a turn that follows a plan and comes to a result. -/
inductive Tells (turn : Turn) (plan : Plan) : Transcript → Except Failure ChatResponse → Prop
  | question (asks : plan.question?.isSome) (first : response.trail.retried = false)
      (follows : response.trail.plan = some plan) :
      Tells turn plan (.question response) (.ok response)
  | refusal (answers : plan.question? = none) (account : Account.View)
      (fails : (preflightOf turn plan account).status = .fail)
      (first : response.trail.retried = false)
      (follows : response.trail.plan = some plan)
      (checked : response.trail.preflight = some (preflightOf turn plan account)) :
      Tells turn plan (.refusal response) (.ok response)
  | failure (answers : plan.question? = none) (account : Account.View)
      (passes : (preflightOf turn plan account).status ≠ .fail) (kept : e ≠ .cancelled) :
      Tells turn plan (.failure deltas usage e.message) (.error e)
  | answer (answers : plan.question? = none) (account : Account.View)
      (passes : (preflightOf turn plan account).status ≠ .fail)
      (follows : response.trail.plan = some plan)
      (checked : response.trail.preflight = some (preflightOf turn plan account)) :
      Tells turn plan (.answer deltas usage response) (.ok response)

theorem conclude_heard (hb : Briefed turn plan briefing opening) (hu : Undisturbed acts)
    (h : Course (conclude p true briefing).run acts (some result)) :
    ∃ t, opening ++ acts.filterMap Act.heard? = t.opening ∧ Tells turn plan t result := by
  cases hb with
  | question asks first follows =>
      obtain ⟨rfl, hresult⟩ := course_pure (a := Except.ok _) h
      obtain rfl := Option.some.inj hresult
      exact ⟨.question _, rfl, .question asks first follows⟩
  | refusal answers account fails first follows checked =>
      obtain ⟨rfl, hresult⟩ := course_pure (a := Except.ok _) h
      obtain rfl := Option.some.inj hresult
      exact ⟨.refusal _, rfl, .refusal answers account fails first follows checked⟩
  | call answers account passes follows checked =>
      obtain ⟨⟨deltas, usage, hheard⟩, hkept, hfollows⟩ := answerByModel_heard hu h
      rw [hheard]
      cases result with
      | ok response =>
          obtain ⟨hplan, hchecked⟩ := hfollows response rfl
          rw [follows] at hplan
          rw [checked] at hchecked
          refine ⟨.answer deltas usage response, ?_, .answer answers account passes hplan hchecked⟩
          rw [← List.append_assoc]
          rfl
      | error e =>
          refine ⟨.failure deltas usage e.message, ?_, .failure answers account passes ?_⟩
          · rw [epilogue, List.append_nil]
            rfl
          · rintro rfl
            exact hkept rfl

theorem Tells.lastEvent (h : Tells turn plan t result) : lastEvent? result = some t.last := by
  cases h with
  | question | refusal | answer => rfl
  | failure _ _ _ kept => exact lastEvent?_error kept

theorem Tells.isQuestion_iff (h : Tells turn plan t result) :
    t.isQuestion ↔ plan.question?.isSome := by
  cases h with
  | question asks => exact ⟨fun _ => asks, fun _ => rfl⟩
  | refusal answers | failure answers | answer answers =>
      rw [answers]
      constructor <;> intro h <;> cases h

theorem Tells.isRefusal_iff (h : Tells turn plan t result) (account : Account.View) :
    t.isRefusal ↔ plan.question? = none ∧ (preflightOf turn plan account).status = .fail := by
  cases h with
  | question asks =>
      refine ⟨fun h => (by cases h), fun ⟨hnone, _⟩ => ?_⟩
      rw [hnone] at asks
      cases asks
  | refusal answers account' fails =>
      exact ⟨fun _ => ⟨answers, preflightOf_fails fails⟩, fun _ => rfl⟩
  | failure answers account' passes | answer answers account' passes =>
      refine ⟨fun h => (by cases h), fun ⟨_, hfails⟩ => ?_⟩
      exact absurd (preflightOf_fails hfails) passes

theorem Tells.says (h : Tells turn plan t result) (hr : t.response? = some response) :
    response.trail.plan = some plan ∧
      (t.isQuestion ∨ ∃ account, response.trail.preflight = some (preflightOf turn plan account)) ∧
      (.progress "retry" 97 ∈ t.events ↔ response.trail.retried) := by
  rw [t.retry_mem]
  cases h with
  | question asks first follows =>
      cases hr
      exact ⟨follows, .inl rfl, by simp [first]⟩
  | refusal answers account fails first follows checked =>
      cases hr
      exact ⟨follows, .inr ⟨account, checked⟩, by simp [first]⟩
  | failure => cases hr
  | answer answers account passes follows checked =>
      cases hr
      refine ⟨follows, .inr ⟨account, checked⟩, ?_⟩
      constructor
      · rintro ⟨_, _, _, he, hretried⟩
        cases he
        exact hretried
      · exact fun hretried => ⟨_, _, _, rfl, hretried⟩

end Consultation

/-- No stream is called off by the model's side. -/
def World.KeepsStreams (w : World σ) : Prop :=
  ∀ call s, ¬ CallsOff (w.answer (.stream call) s).1

theorem World.Attended.run {w : World σ} (attended : w.Attended) (keeps : w.KeepsStreams)
    (d : Dialogue α) (s : Scene σ) :
    ∃ a acts s', d.run w s = (some a, s') ∧ s'.acts = s.acts ++ acts ∧ Course d acts (some a) ∧
      Undisturbed acts := by
  obtain ⟨acts, hacts, hcourse, hshows⟩ := run_course w d s
  obtain ⟨a, ha⟩ := Option.isSome_iff_exists.1 (attended.run_isSome d s)
  have heard : ¬ Missed acts := by
    rintro ⟨event, he⟩
    have := attended.heard (hshows _ he)
    cases this
  have kept (call : Call) (arrival : Arrival (List Signal))
      (hq : .asked (.stream call) arrival ∈ acts) : ¬ CallsOff arrival := by
    obtain ⟨s, rfl⟩ := hshows _ hq
    exact keeps call s
  rw [ha] at hcourse
  exact ⟨a, acts, _, by rw [← ha], hacts, hcourse, heard, kept⟩

namespace Consultation

theorem prepare_heard (hu : Undisturbed acts)
    (h : Course (prepare p true turn).run acts (some result)) :
    ∃ planned, result = .ok planned ∧ acts.filterMap Act.heard? = Transcript.planning := by
  rcases course_prepare h with ⟨planning, rfl, hp⟩ | ⟨rest, rfl, hunheard⟩ | hunheard
  · rcases hp with ⟨planned, hresult, hp⟩ | ⟨he, _⟩
    · refine ⟨planned, Option.some.inj hresult, ?_⟩
      rw [List.filterMap_append, List.filterMap_append, (Plan.asks_forTurn ..).unheard hp]
      rfl
    · cases he
  · exact absurd hunheard (not_unheard hu.later)
  · exact absurd hunheard (not_unheard hu)

/-! Nothing that is told before an answer is there ends the stream. -/

def Open : Act → Prop
  | .asked _ _ => True
  | .sent event _ => event.ends = false

theorem open_of_relayed (h : Stream.Relayed acts) : ∀ a ∈ acts, Open a := by
  induction h with
  | nothing => simp
  | usage u heard => simp [Open, Stream.Event.ends]
  | delta text pct heard rest ih => simpa [Open, Stream.Event.ends] using ih

theorem generate_open (p : Practice) (listening : Bool) (call : Call) :
    (generate p listening call).Does Open := by
  intro acts r hc
  cases listening with
  | false =>
      obtain ⟨arrival, rfl, _⟩ := course_generate_silent hc
      simp [Open]
  | true =>
      obtain ⟨arrival, told, rfl, relayed, _⟩ := course_generate_listening hc
      rintro a (_ | ⟨_, ha⟩)
      · trivial
      · exact open_of_relayed relayed a ha

theorem open_composes (listening : Bool) :
    Composes listening (fun _ => True) fun _ x => x.Does Open where
  pure a := Attempt.does_pure a
  bind hx hf := hx.bind hf
  lift hd := Attempt.does_lift hd fun _ _ _ => trivial
  report stage := by
    unfold report
    split
    · exact Attempt.does_send fun _ => rfl
    · exact Attempt.does_pure ()

theorem answer_open (p : Practice) (listening : Bool) (turn : Turn) :
    (answer p listening turn).Does Open :=
  (open_composes listening).answer (generate_open p listening) turn

theorem eq_ok_of_lastEvent? (h : lastEvent? result = some (.result response pct)) :
    result = .ok response := by
  cases result with
  | ok response => cases h; rfl
  | error e => cases e <;> cases h

theorem course_stream_result (h : Course (stream p turn).run acts r)
    (hsent : .sent (.result response pct) heard ∈ acts) :
    ∃ before, acts = before ++ [.sent (.result response pct) heard] ∧
      Course (answer p true turn).run before (some (.ok response)) := by
  have not_before {before : List Act} {r : Option (Except Failure ChatResponse)}
      (hanswer : Course (answer p true turn).run before r) :
      .sent (.result response pct) heard ∉ before := by
    intro hmem
    have := answer_open p true turn before r hanswer _ hmem
    cases this
  rcases course_stream h with ⟨result, before, after, rfl, hanswer, hend⟩ | ⟨_, hanswer⟩
  · have hafter := (List.mem_append.1 hsent).resolve_left (not_before hanswer)
    rcases hend with ⟨_, rfl, _⟩ | ⟨event, hevent, hs⟩
    · cases hafter
    · obtain ⟨heard', rfl⟩ : ∃ heard', after = [.sent event heard'] := by
        rcases Attempt.course_send hs with ⟨rfl, _⟩ | ⟨rfl, _⟩ | ⟨rfl, _⟩
        · exact ⟨true, rfl⟩
        · exact ⟨false, rfl⟩
        · cases hafter
      cases List.mem_singleton.1 hafter
      exact ⟨before, rfl, eq_ok_of_lastEvent? hevent ▸ hanswer⟩
  · exact absurd hsent (not_before hanswer)

/-- A client that stays is told of a turn in one of the four ways. Which it is the plan says, and
the check of the scan, and a correction is announced just where the response has one. -/
theorem stream_heard {w : World σ} (attended : w.Attended) (keeps : w.KeepsStreams) (p : Practice)
    (turn : Turn) (outside : σ) (memory : Memory) :
    ∃ planned between s, ∃ t : Transcript,
      (prepare p true turn).run.run w ⟨outside, memory, []⟩ = (some (.ok planned), between) ∧
      (stream p turn).run.run w ⟨outside, memory, []⟩ = (some (.ok ()), s) ∧
      s.heard = t.events ∧
      (t.isQuestion ↔ planned.plan.question?.isSome) ∧
      (∀ account, t.isRefusal ↔
        planned.plan.question? = none ∧ (preflightOf turn planned.plan account).status = .fail) ∧
      (∀ response, t.response? = some response → response.trail.plan = some planned.plan ∧
        (t.isQuestion ∨ ∃ account,
          response.trail.preflight = some (preflightOf turn planned.plan account)) ∧
        (.progress "retry" 97 ∈ s.heard ↔ response.trail.retried)) ∧
      (∀ before e after, s.heard = before ++ e :: after →
        (e.ends ↔ after = []) ∧
        (∀ text pct, e = .error text pct → .progress "generation" 45 ∈ before)) := by
  obtain ⟨prepared, acts, between, hprepare, hacts, hc, hu⟩ :=
    attended.run keeps (prepare p true turn).run ⟨outside, memory, []⟩
  obtain ⟨planned, rfl, hplanning⟩ := prepare_heard hu hc
  obtain ⟨briefed, acts', middle, hfollow, hacts', hc', hu'⟩ :=
    attended.run keeps
      (followPlan p true ((Draft.start turn).planned planned) planned.plan).run between
  obtain ⟨briefing, rfl, hb⟩ := followPlan_heard hu' rfl rfl hc'
  obtain ⟨result, acts'', after, hconclude, hacts'', hc'', hu''⟩ :=
    attended.run keeps (conclude p true briefing).run middle
  obtain ⟨t, hopening, htells⟩ := conclude_heard hb hu'' hc''
  obtain ⟨outside', hhear⟩ := attended.hears t.last after.outside
  have hanswer : (answer p true turn).run.run w ⟨outside, memory, []⟩ = (some result, after) := by
    rw [answer, Attempt.run_bind, brief, Attempt.run_bind, hprepare]
    simp only
    rw [hfollow]
    exact hconclude
  have hstream := stream_run hanswer htells.lastEvent hhear
  have hheard :
      Scene.heard { after.act (.sent t.last true) with outside := outside' } = t.events := by
    rw [Scene.heard, Scene.act, hacts'', hacts', hacts]
    rw [List.filterMap_append, List.filterMap_append, List.nil_append, List.filterMap_append,
      hplanning, hopening]
    rfl
  refine ⟨planned, between, _, t, hprepare, hstream, hheard, ?_, ?_, ?_, ?_⟩
  · exact htells.isQuestion_iff
  · exact htells.isRefusal_iff
  · intro response hr
    rw [hheard]
    exact htells.says hr
  · intro before e after hsplit
    rw [hheard] at hsplit
    refine ⟨t.ends_iff hsplit, ?_⟩
    rintro text pct rfl
    exact t.generation_mem hsplit

def telling : World Unit :=
  .replying (fun _ => ⟨"", "", "", []⟩)
    [.line "data: \x7b\"choices\":[\x7b\"delta\":\x7b\"content\":\"A gap.\"\x7d\x7d]\x7d", .line "",
      .line "data: \x7b\"usage\":\x7b\"total_tokens\":3\x7d\x7d", .line "data: [DONE]"]

theorem telling_keepsStreams : telling.KeepsStreams := by
  rintro call s (he | ⟨signals, he, hfault⟩)
  · cases he
  · cases he
    simp at hfault

theorem exists_delta {events : List Event} {text : String}
    (h : events.any fun | .delta said _ => said == text | _ => false) :
    ∃ pct, .delta text pct ∈ events := by
  obtain ⟨event, hmem, hsaid⟩ := List.any_eq_true.1 h
  cases event with
  | delta said pct =>
      obtain rfl := eq_of_beq hsaid
      exact ⟨pct, hmem⟩
  | _ => cases hsaid

theorem exists_usage {events : List Event}
    (h : events.any fun | .usage usage _ => !usage.isEmpty | _ => false) :
    ∃ usage pct, usage ≠ [] ∧ .usage usage pct ∈ events := by
  obtain ⟨event, hmem, htold⟩ := List.any_eq_true.1 h
  cases event with
  | usage usage pct => exact ⟨usage, pct, by simpa using htold, hmem⟩
  | _ => cases htold

theorem stream_heard_telling :
    telling.Attended ∧ telling.KeepsStreams ∧
      ∃ s, ∃ t : Transcript,
        (stream .plain (.plain "hi")).run.run telling ⟨(), .empty, []⟩ = (some (.ok ()), s) ∧
        s.heard = t.events ∧ (∃ pct, .delta "A gap." pct ∈ s.heard) ∧
        ∃ usage pct, usage ≠ [] ∧ .usage usage pct ∈ s.heard := by
  have attended : telling.Attended := World.replying_attended _ _
  obtain ⟨_, _, s, t, _, hstream, hheard, _⟩ :=
    stream_heard attended telling_keepsStreams .plain (.plain "hi") () .empty
  have hs : ((stream .plain (.plain "hi")).run.run telling ⟨(), .empty, []⟩).2 = s := by rw [hstream]
  refine ⟨attended, telling_keepsStreams, s, t, hstream, hheard, exists_delta ?_, exists_usage ?_⟩
  · rw [← hs]
    decide +kernel
  · rw [← hs]
    decide +kernel

end Consultation

end Advisor

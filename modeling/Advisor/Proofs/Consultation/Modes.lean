import Advisor.Proofs.Consultation.Stages
import Advisor.Proofs.Dialogue.Lockstep
import Advisor.Proofs.Dialogue.Yielding
import Advisor.Proofs.Stream.Agreement

namespace Advisor

open Dialogue

theorem Question.About.not_stream {topic : Topic} {q : Question} (h : q.About topic)
    (ht : topic ≠ .model) : ¬ q.IsStream := by
  cases q with
  | stream call => exact absurd h.symm ht
  | _ => exact id

namespace Consultation

theorem narrates_report {timed : Prop} (stage : Stream.Stage) :
    Narrates timed Succeeds (report false stage).run (report true stage).run :=
  .tell (.done ⟨(), rfl⟩)

theorem narrates_prepare (p : Practice) (turn : Turn) :
    Narrates True Succeeds (prepare p false turn).run (prepare p true turn).run := by
  refine Attempt.narrates_bind (narrates_report .classify) fun _ => ?_
  refine Attempt.narrates_bind (narrates_report .plan) fun _ => ?_
  refine Attempt.narrates_lift ((Plan.asks_forTurn p.planner turn turn.intent).narrates ?_)
  rintro q rfl
  exact id

theorem narrates_inform (p : Practice) (d : Draft) (plan : Plan) (context : Scan.Context)
    (preflight : Preflight) :
    Narrates True Succeeds (inform p false d plan context preflight).run
      (inform p true d plan context preflight).run := by
  refine Attempt.narrates_bind (narrates_report .retrieval) fun _ => ?_
  refine Attempt.narrates_bind (Attempt.narrates_lift ?_) fun found => ?_
  · refine (Knowledge.asks_findings p.library plan d.turn).narrates fun q hq => ?_
    rcases hq with hq | hq
    · exact hq.not_stream (by decide)
    · exact hq.not_stream (by decide)
  · exact Attempt.narrates_bind (narrates_report .generation) fun _ => Attempt.narrates_pure _

theorem narrates_check (p : Practice) (d : Draft) (plan : Plan) (context : Scan.Context) :
    Narrates True Succeeds (check p false d plan context).run
      (check p true d plan context).run := by
  refine Attempt.narrates_bind (narrates_report .preflight) fun _ => ?_
  simp only
  split
  · exact Attempt.narrates_pure _
  · exact narrates_inform ..

theorem narrates_scope (p : Practice) (d : Draft) (plan : Plan) :
    Narrates True Succeeds (scope p false d plan).run (scope p true d plan).run := by
  refine Attempt.narrates_bind (narrates_report .context) fun _ => ?_
  refine Attempt.narrates_bind (Attempt.narrates_lift ?_) fun account => narrates_check ..
  exact (asks_accountFor _ _ _).narrates fun q hq => hq.1.not_stream (by decide)

theorem narrates_followPlan (p : Practice) (d : Draft) (plan : Plan) :
    Narrates True Succeeds (followPlan p false d plan).run (followPlan p true d plan).run := by
  rw [followPlan, followPlan]
  split
  · exact Attempt.narrates_pure _
  · exact narrates_scope p d plan

/-- A turn comes to its briefing in the same way whether a client listens or not. -/
theorem narrates_brief (p : Practice) (turn : Turn) :
    Narrates True Succeeds (brief p false turn).run (brief p true turn).run :=
  Attempt.narrates_bind (narrates_prepare p turn) fun _ => narrates_followPlan ..

theorem narrates_settle {timed : Prop} (p : Practice) (d : Draft) (plan : Plan) (call : Call)
    (first : Reply) :
    Narrates timed Succeeds (settle p false d plan call first).run
      (settle p true d plan call first).run := by
  have hchecked : Narrates timed (fun _ => True)
      (Answer.checked p.rules call first plan.intent d.turn.locale)
      (Answer.checked p.rules call first plan.intent d.turn.locale) := by
    rw [Answer.checked]
    split
    · exact .done trivial
    · exact .ask id fun _ => .wait (.done trivial)
  have hrest := Attempt.narrates_bind (Attempt.narrates_lift hchecked) fun c =>
    Attempt.narrates_pure ((d.checked c).respond plan.intent c.reply)
  unfold settle
  split
  · exact Attempt.narrates_bind (narrates_report .retry) fun _ => hrest
  · exact hrest

theorem generate_asked_silent (w : World σ) (p : Practice) (call : Call) (s : Scene σ) :
    ((generate p false call).run.run w s).2.asked = s.asked ++ [.completion call] := by
  obtain ⟨acts, hacts, hcourse, _⟩ := run_course w (generate p false call).run s
  obtain ⟨arrival, rfl, _⟩ := course_generate_silent hcourse
  rw [Scene.asked, hacts, List.filterMap_append]
  rfl

theorem generate_asked_listening (w : World σ) (p : Practice) (call : Call) (s : Scene σ) :
    ((generate p true call).run.run w s).2.asked =
      s.asked ++ [.stream { call with timeoutMs := p.timeouts.stream }] := by
  obtain ⟨acts, hacts, hcourse, _⟩ := run_course w (generate p true call).run s
  obtain ⟨arrival, told, rfl, relayed, _⟩ := course_generate_listening hcourse
  rw [Scene.asked, hacts, List.filterMap_append]
  exact congrArg (s.asked ++ ·) (congrArg (List.cons _) relayed.silent)

theorem stream_ends {w : World σ} {s after : Scene σ}
    (hanswer : (answer p true turn).run.run w s = (some result, after))
    (hlast : lastEvent? result = some event)
    (hhear : w.hear event after.outside = some (true, outside)) :
    ∃ t, (stream p turn).run.run w s = (some (.ok ()), t) ∧ t.heard.getLast? = some event ∧
      t.asked = after.asked := by
  refine ⟨_, stream_run hanswer hlast hhear, ?_, ?_⟩
  · rw [Scene.heard, Scene.act, List.filterMap_append]
    exact List.getLast?_concat ..
  · rw [Scene.asked_act]
    exact List.append_nil _

theorem stream_tells {timed : Prop} {w : World σ} {w' : World τ} {R : σ → τ → Prop}
    (lockstep : Lockstep timed w w' R) {s after : Scene τ} {outside : σ}
    (houtside : R outside after.outside) (kept : result ≠ .error .cancelled)
    (hanswer : (answer p true turn).run.run w' s = (some result, after)) :
    ∃ t, (stream p turn).run.run w' s = (some (.ok ()), t) ∧
      (∀ response, result = .ok response → t.heard.getLast? = some (.result response 100)) ∧
      (∀ e, result = .error e → t.heard.getLast? = some (.error e.message 100)) ∧
      t.asked = after.asked := by
  cases result with
  | ok response =>
      obtain ⟨_, hhear, _⟩ := lockstep.hears (.result response 100) houtside
      obtain ⟨t, hstream, hheard, hasked⟩ := stream_ends hanswer rfl hhear
      refine ⟨t, hstream, ?_, by simp, hasked⟩
      intro _ he
      cases he
      exact hheard
  | error e =>
      have hlast : lastEvent? (.error e) = some (.error e.message 100) :=
        lastEvent?_error fun he => kept (congrArg _ he)
      obtain ⟨_, hhear, _⟩ := lockstep.hears (.error e.message 100) houtside
      obtain ⟨t, hstream, hheard, hasked⟩ := stream_ends hanswer hlast hhear
      refine ⟨t, hstream, by simp, ?_, hasked⟩
      intro _ he
      cases he
      exact hheard

theorem answer_run_reply {w : World σ} {s u : Scene σ}
    (hbrief : (brief p listening turn).run.run w s = (some (.ok (.reply response)), u)) :
    (answer p listening turn).run.run w s = (some (.ok response), u) := by
  rw [answer, Attempt.run_bind, hbrief]
  rfl

theorem answer_run_call {w : World σ} {s u : Scene σ}
    (hbrief : (brief p listening turn).run.run w s = (some (.ok (.call d plan call)), u)) :
    (answer p listening turn).run.run w s =
      (answerByModel p listening d plan call).run.run w u := by
  rw [answer, Attempt.run_bind, hbrief]
  rfl

theorem answerByModel_run_error {w : World σ} {u u' : Scene σ}
    (h : (generate p listening call).run.run w u = (some (.error e), u')) :
    (answerByModel p listening d plan call).run.run w u = (some (.error e), u') := by
  rw [answerByModel, Attempt.run_bind, h]

theorem answerByModel_run_ok {w : World σ} {u u' : Scene σ}
    (h : (generate p listening call).run.run w u = (some (.ok first), u')) :
    (answerByModel p listening d plan call).run.run w u =
      (settle p listening d.called plan call first).run.run w u' := by
  rw [answerByModel, Attempt.run_bind, h]

theorem answerByModel_alike {w : World σ} {w' : World τ} {R : σ → τ → Prop}
    (lockstep : Lockstep False w w' R) {u u' : Scene σ} {v v' : Scene τ}
    (hgenerate : (generate p false call).run.run w u = (some made, u'))
    (hgenerate' : (generate p true call).run.run w' v = (some made, v'))
    (houtside : R u'.outside v'.outside) (kept : made ≠ .error .cancelled) (d : Draft)
    (plan : Plan) :
    ∃ result last last',
      (answerByModel p false d plan call).run.run w u = (some result, last) ∧
      (answerByModel p true d plan call).run.run w' v = (some result, last') ∧
      R last.outside last'.outside ∧ result ≠ .error .cancelled ∧
      (∀ first, made = .ok first → ∃ response, result = .ok response) ∧
      (∀ e, made = .error e → result = .error e) ∧
      ∃ rest, last.asked = u.asked ++ .completion call :: rest ∧
        last'.asked = v.asked ++ .stream { call with timeoutMs := p.timeouts.stream } :: rest := by
  have hasked := generate_asked_silent w p call u
  have hasked' := generate_asked_listening w' p call v
  rw [hgenerate] at hasked
  rw [hgenerate'] at hasked'
  cases made with
  | error e =>
      have hanswer : (answerByModel p false d plan call).run.run w u = (some (.error e), u') :=
        answerByModel_run_error hgenerate
      have hanswer' : (answerByModel p true d plan call).run.run w' v = (some (.error e), v') :=
        answerByModel_run_error hgenerate'
      refine ⟨.error e, u', v', hanswer, hanswer', houtside, ?_, by simp, ?_, [], hasked, hasked'⟩
      · intro he
        cases he
        exact kept rfl
      · intro _ he
        cases he
        rfl
  | ok first =>
      obtain ⟨_, rest, last, last', hsettle, hsettle', ⟨response, rfl⟩, habreast, hrest, hrest'⟩ :=
        (narrates_settle p d.called plan call first).run lockstep ⟨houtside, False.elim⟩
      have hanswer := (answerByModel_run_ok hgenerate).trans hsettle
      have hanswer' := (answerByModel_run_ok hgenerate').trans hsettle'
      refine ⟨.ok response, last, last', hanswer, hanswer', habreast.outside, by simp, ?_, by simp,
        rest, ?_, ?_⟩
      · exact fun _ _ => ⟨response, rfl⟩
      · rw [hrest, hasked, List.append_assoc]
        rfl
      · rw [hrest', hasked', List.append_assoc]
        rfl

/-- A client that waits and one that listens are answered alike. The two worlds go in step up to the
call for the answer; what comes of it, `o`, is the same in both, and the corrective call is then
answered alike too. -/
theorem answer_eq_stream {w : World σ} {w' : World τ} {R R' : σ → τ → Prop}
    (before : Lockstep True w w' R) (after : Lockstep False w w' R') (p : Practice) (turn : Turn)
    (memory : Memory) {s : σ} {t : τ} (start : R s t) {o : Call → Except Failure Reply}
    (kept : ∀ call, o call ≠ .error .cancelled)
    (generation : ∀ d plan call u v,
      (brief p false turn).run.run w ⟨s, memory, []⟩ = (some (.ok (.call d plan call)), u) →
      (brief p true turn).run.run w' ⟨t, memory, []⟩ = (some (.ok (.call d plan call)), v) →
      ∃ u' v', (generate p false call).run.run w u = (some (o call), u') ∧
        (generate p true call).run.run w' v = (some (o call), v') ∧ R' u'.outside v'.outside) :
    ∃ briefing u v result u' v',
      (brief p false turn).run.run w ⟨s, memory, []⟩ = (some (.ok briefing), u) ∧
      (brief p true turn).run.run w' ⟨t, memory, []⟩ = (some (.ok briefing), v) ∧
      (answer p false turn).run.run w ⟨s, memory, []⟩ = (some result, u') ∧
      (stream p turn).run.run w' ⟨t, memory, []⟩ = (some (.ok ()), v') ∧
      (∀ response, result = .ok response → v'.heard.getLast? = some (.result response 100)) ∧
      (∀ e, result = .error e → v'.heard.getLast? = some (.error e.message 100)) ∧
      (∀ response, briefing = .reply response → result = .ok response ∧ u'.asked = v'.asked) ∧
      (∀ d plan call, briefing = .call d plan call →
        (∀ first, o call = .ok first → ∃ response, result = .ok response) ∧
        (∀ e, o call = .error e → result = .error e) ∧
        ∃ rest, u'.asked = u.asked ++ .completion call :: rest ∧
          v'.asked = u.asked ++ .stream { call with timeoutMs := p.timeouts.stream } :: rest) := by
  obtain ⟨made, asked, u, v, hu, hv, ⟨briefing, rfl⟩, habreast, hasked, hasked'⟩ :=
    (narrates_brief p turn).run before (s := ⟨s, memory, []⟩) (t := ⟨t, memory, []⟩)
      ⟨start, fun _ => rfl⟩
  have hsame : v.asked = u.asked := by rw [hasked, hasked']; rfl
  cases briefing with
  | reply response =>
      obtain ⟨v', hstream, hresult, herror, hstreamed⟩ :=
        stream_tells before habreast.outside (by simp) (answer_run_reply hv)
      refine ⟨_, u, v, _, u, v', hu, hv, answer_run_reply hu, hstream, hresult, herror, ?_, by simp⟩
      rintro _ he
      cases he
      exact ⟨rfl, by rw [hstreamed, hsame]⟩
  | call d plan call =>
      obtain ⟨u', v', hgenerate, hgenerate', houtside⟩ := generation d plan call u v hu hv
      obtain ⟨result, last, last', hanswer, hanswer', houtside, hkept, hok, hfailed, hcalls⟩ :=
        answerByModel_alike after hgenerate hgenerate' houtside (kept call) d plan
      obtain ⟨rest, hrest, hrest'⟩ := hcalls
      obtain ⟨v', hstream, hresult, herror, hstreamed⟩ :=
        stream_tells after houtside hkept ((answer_run_call hv).trans hanswer')
      refine ⟨_, u, v, result, last, v', hu, hv, (answer_run_call hu).trans hanswer, hstream,
        hresult, herror, by simp, ?_⟩
      rintro _ _ _ he
      cases he
      refine ⟨hok, hfailed, rest, hrest, ?_⟩
      rw [hstreamed, hrest', hsame]

end Consultation

namespace Stream

open Assembler

def gapEvent : List (String × Json) :=
  [("choices", .arr [.obj [("delta", .obj [("content", .str "A gap.")])]])]

def gapSignals : List Signal :=
  [.line ("data: " ++ (Json.obj gapEvent).compact), .line "data: [DONE]"]

def gapReply (call : Call) : Reply := ⟨"A gap.", call.model, "", []⟩

theorem gapEvent_read : Chunk.ofText? (Json.obj gapEvent).compact =
    some ⟨none, none, [some (.text "A gap.")], none, none⟩ := by
  have hlegible : (Json.obj gapEvent).Legible := by
    simp [gapEvent, Json.Legible, Json.LegibleItems, Json.LegibleMembers]
  rw [Chunk.ofText?, (Json.writes_compact hlegible).ofText]
  rfl

theorem relayFor_gap (call : Call) : ∃ pct, relayFor call gapSignals = do
    Attempt.send (.delta "A gap." pct)
    return gapReply call := by
  have hdata := payload?_compact gapEvent
  have hmore := compact_ne_sentinel gapEvent
  have hread := gapEvent_read
  have hend : payload? "data: [DONE]" = some "[DONE]" := by decide +kernel
  unfold relayFor gapSignals
  generalize (Json.obj gapEvent).compact = text at *
  generalize paceOf call.maxTokens = pace
  have hfirst : (start call.model).push pace ("data: " ++ text) =
      (⟨[text], "", call.model, "", none, false⟩, []) :=
    push_data rfl (Batch.isBlank_of_data hdata) hdata hmore
  have hlast : (⟨[text], "", call.model, "", none, false⟩ : Assembler).push pace "data: [DONE]" =
      (⟨[], "A gap.", call.model, "", none, true⟩, [.delta "A gap." (pace (Text.runeCount "A gap.")), .done]) := by
    rw [push_sentinel rfl (Batch.isBlank_of_data hend) hend]
    simp [finish, flush, hread, absorb, Chunk.text, Completion.Content.plain, Completion.namedModel]
  refine ⟨pace (Text.runeCount "A gap."), ?_⟩
  rw [relay, if_neg (by simp [start]), hfirst]
  simp only [deliver, pure_bind]
  rw [relay, if_neg (by simp), hlast]
  simp [deliver, relay, Stream.conclude, reply, gapReply]
end Stream

namespace Consultation

def gapWorld : World Unit := .replying Stream.gapReply Stream.gapSignals

theorem generate_replying (reply : Call → Reply) (signals : List Stream.Signal) (call : Call)
    (s : Scene Unit) :
    (generate .plain true call).run.run (.replying reply signals) s =
      (Attempt.within Practice.plain.timeouts.stream (Stream.relayFor call signals)).run.run
        (.replying reply signals)
        (s.act (.asked (.stream { call with timeoutMs := Practice.plain.timeouts.stream })
          (.now (.ok signals)))) := rfl

theorem generate_gap (call : Call) (s : Scene Unit) :
    ∃ t, (generate .plain true call).run.run gapWorld s = (some (.ok (Stream.gapReply call)), t) := by
  obtain ⟨pct, hrelay⟩ := Stream.relayFor_gap call
  rw [gapWorld, generate_replying, hrelay]
  exact ⟨_, rfl⟩

theorem answer_eq_stream_gap :
    Lockstep True gapWorld gapWorld (fun _ _ => True) ∧
      ∃ response u v,
        (answer .plain false (.plain "hi")).run.run gapWorld ⟨(), .empty, []⟩ =
          (some (.ok response), u) ∧
        response.answer = "A gap." ∧
        (stream .plain (.plain "hi")).run.run gapWorld ⟨(), .empty, []⟩ = (some (.ok ()), v) ∧
        v.heard.getLast? = some (.result response 100) := by
  have before : Lockstep True gapWorld gapWorld (fun _ _ => True) := lockstep_replying True _ _
  have after : Lockstep False gapWorld gapWorld (fun _ _ => True) := lockstep_replying False _ _
  obtain ⟨briefing, u, v, result, u', v', _, _, hanswer, hstream, hok, _, hreply, hcall⟩ :=
    answer_eq_stream before after .plain (.plain "hi") .empty trivial
      (o := fun call => .ok (Stream.gapReply call)) (by simp)
      fun d plan call u v _ _ => by
        obtain ⟨v', hv'⟩ := generate_gap call v
        exact ⟨_, v', rfl, hv', trivial⟩
  have hresult : ∃ response, result = .ok response := by
    cases briefing with
    | reply response => exact ⟨response, (hreply response rfl).1⟩
    | call d plan call => exact (hcall d plan call rfl).1 _ rfl
  obtain ⟨response, rfl⟩ := hresult
  obtain ⟨told, _, hrun, htold⟩ := Attempt.exists_of_run (fun r : ChatResponse => r.answer == "A gap.")
    (x := answer .plain false (.plain "hi")) (w := gapWorld) (s := ⟨(), .empty, []⟩)
    (by decide +kernel)
  rw [hanswer] at hrun
  cases hrun
  exact ⟨before, response, u', v', hanswer, eq_of_beq htold, hstream, hok response rfl⟩

end Consultation

end Advisor

import Advisor.Proofs.Consultation.Narration
import Advisor.Proofs.Dialogue.Alike

namespace Advisor

open Dialogue

def Turn.unplanned (turn : Turn) : Turn := { turn with enablePlanner := false }

/-- A trail with the call that brought no plan, if there is a note of it. -/
def Trail.noted (note : Option String) (t : Trail) : Trail :=
  { t with modelCalls := t.modelCalls + note.toList.length }

/-- A response with a note put before its warnings. -/
def ChatResponse.noted (note : Option String) (r : ChatResponse) : ChatResponse :=
  { r with trail := r.trail.noted note, warnings := note.toList ++ r.warnings }

theorem ChatResponse.noted_none : noted none = id := rfl

def Stream.Event.noted (note : Option String) : Event → Event
  | progress stage pct => progress stage pct
  | delta text pct => delta text pct
  | usage u pct => usage u pct
  | result response pct => result (response.noted note) pct
  | error text pct => error text pct

def Act.noted (note : Option String) : Act → Act
  | .sent event heard => .sent (event.noted note) heard
  | .asked q arrival => .asked q arrival

theorem Attempt.lift_pure_bind (a : α) (f : α → Attempt β) :
    ExceptT.lift (pure a) >>= f = f a := rfl

namespace Plan

variable {planner : Planner} {turn : Turn} {intent : Intent}

def outageNote (e : Failure) : String := "planner unavailable, default plan used: " ++ e.message

theorem limitedTo_ofAnswer_error (intent : Intent) (e : Failure) (turn : Turn) :
    (Planned.ofAnswer intent (.error e)).limitedTo turn =
      ⟨(default intent).limitedTo turn, some (outageNote e), true⟩ := rfl

theorem planOf_now (planner : Planner) (turn : Turn) (intent : Intent) (reply : Reply) :
    planner.planOf turn intent (.now (.ok reply)) = planner.read turn intent reply := by
  have hintime : (Arrival.now (.ok reply) : Arrival Reply).lapse.ms ≤
      (planner.call turn intent).timeoutMs := Nat.zero_le _
  rw [Planner.planOf, Arrival.limited, if_pos hintime]
  rfl

theorem planOf_blank {reply : Reply} (h : (Text.trim reply.answer).isEmpty) :
    (Planner.standard timeoutMs).planOf turn intent (.now (.ok reply)) =
      .error (.planner "empty planner response") := by
  rw [planOf_now, Planner.standard]
  simp only [ofReply, if_pos h]

theorem forTurn_unasked (h : asksModel turn intent = false) (planner : Planner) :
    forTurn planner turn intent = pure ⟨(default intent).limitedTo turn, none, false⟩ := by
  rw [forTurn, if_neg (by simp [h])]
  rfl

theorem run_forTurn {w : World σ} {s : Scene σ} (hasks : asksModel turn intent)
    (hanswer : w.answer (.completion (planner.call turn intent)) s.outside = (arrival, outside))
    (hpass : w.pass (arrival.limited (planner.call turn intent).timeoutMs).lapse outside =
      some outside') :
    (forTurn planner turn intent).run w s =
      (some ((Planned.ofAnswer intent (planner.planOf turn intent arrival)).limitedTo turn),
        { s.act (planner.asked turn intent arrival) with outside := outside' }) := by
  rw [forTurn, if_pos hasks]
  change (Dialogue.ask _ fun a => .wait (a.limited _).lapse (.done _)).run w s = _
  simp only [Dialogue.run, hanswer, hpass]
  rfl

end Plan

namespace Consultation

section Noted

variable (p : Practice) (listening : Bool) (asks : Bool) (note : Option String)

def Draft.noted (d : Draft) : Draft where
  turn := { d.turn with enablePlanner := asks }
  trail := d.trail.noted note
  warnings := note.toList ++ d.warnings

def Briefing.noted : Briefing → Briefing
  | .reply response => .reply (response.noted note)
  | .call d plan call' => .call (d.noted asks note) plan call'

/-! No stage of a turn looks at whether a planner is wanted, or at what was noted before. -/

theorem inform_noted (d : Draft) (plan : Plan) (context : Scan.Context) (preflight : Preflight) :
    inform p listening (d.noted asks note) plan context preflight =
      Briefing.noted asks note <$> inform p listening d plan context preflight := by
  have hinformed (found : Prompt.Findings) :
      (d.noted asks note).informed found = (d.informed found).noted asks note := by
    simp [Draft.noted, Draft.informed, Trail.noted]
  unfold inform
  simp only [map_bind, map_pure, Briefing.noted, ← hinformed]
  rfl

theorem check_noted (d : Draft) (plan : Plan) (context : Scan.Context) :
    check p listening (d.noted asks note) plan context =
      Briefing.noted asks note <$> check p listening d plan context := by
  have hpreflighted (preflight : Preflight) :
      (d.noted asks note).preflighted preflight = (d.preflighted preflight).noted asks note := rfl
  unfold check
  rw [map_bind]
  refine bind_congr fun _ => ?_
  simp only [hpreflighted, inform_noted]
  change (if (Preflight.check plan context d.trail.accountWanted d.turn.locale).status = .fail
    then _ else _) = _
  split
  · rw [map_pure]
    rfl
  · rfl

theorem scope_noted (d : Draft) (plan : Plan) :
    scope p listening (d.noted asks note) plan =
      Briefing.noted asks note <$> scope p listening d plan := by
  have hacquainted (wanted : Bool) (account : Account.View) :
      (d.noted asks note).acquainted wanted account =
        (d.acquainted wanted account).noted asks note := rfl
  unfold scope
  simp only [map_bind, hacquainted, check_noted]
  rfl

theorem followPlan_noted (d : Draft) (plan : Plan) :
    followPlan p listening (d.noted asks note) plan =
      Briefing.noted asks note <$> followPlan p listening d plan := by
  unfold followPlan
  split
  · rw [map_pure]
    rfl
  · exact scope_noted ..

theorem settle_noted (d : Draft) (plan : Plan) (call : Call) (first : Reply) :
    settle p listening (d.noted asks note) plan call first =
      ChatResponse.noted note <$> settle p listening d plan call first := by
  have hchecked (c : Answer.Checked) :
      ((d.noted asks note).checked c).respond plan.intent c.reply =
        ((d.checked c).respond plan.intent c.reply).noted note := by
    simp [Draft.noted, Draft.checked, Draft.respond, ChatResponse.noted, Trail.noted,
      Nat.add_right_comm]
  unfold settle
  simp only [hchecked]
  split
  · simp only [map_bind, map_pure]
    rfl
  · simp only [map_bind, map_pure]
    rfl

theorem conclude_noted (briefing : Briefing) :
    conclude p listening (briefing.noted asks note) =
      ChatResponse.noted note <$> conclude p listening briefing := by
  cases briefing with
  | reply response =>
      change pure (response.noted note) = ChatResponse.noted note <$> pure response
      rw [map_pure]
  | call d plan call =>
      have hcalled : (d.noted asks note).called = d.called.noted asks note := by
        simp [Draft.noted, Draft.called, Trail.noted, Nat.add_right_comm]
      change answerByModel p listening (d.noted asks note) plan call = _
      unfold answerByModel
      rw [hcalled]
      simp only [settle_noted]
      rw [← map_bind]
      rfl

end Noted

variable {p : Practice} {turn : Turn} {listening : Bool}

def announce (listening : Bool) : Attempt Unit := do
  report listening .classify
  report listening .plan
  return ()

def resume (p : Practice) (listening : Bool) (turn : Turn) (planned : Plan.Planned) :
    Attempt ChatResponse := do
  let briefing ← followPlan p listening ((Draft.start turn).planned planned) planned.plan
  conclude p listening briefing

theorem answer_eq (p : Practice) (listening : Bool) (turn : Turn) :
    answer p listening turn = announce listening >>= fun _ =>
      ExceptT.lift (Plan.forTurn p.planner turn turn.intent) >>= resume p listening turn := by
  simp only [answer, brief, prepare, announce, bind_assoc, pure_bind]
  rfl

theorem resume_noted (p : Practice) (listening : Bool) (turn : Turn) (plan : Plan)
    (note : Option String) :
    resume p listening turn ⟨plan, note, note.isSome⟩ =
      ChatResponse.noted note <$> resume p listening turn.unplanned ⟨plan, none, false⟩ := by
  have hdraft : (Draft.start turn).planned ⟨plan, note, note.isSome⟩ =
      ((Draft.start turn.unplanned).planned ⟨plan, none, false⟩).noted turn.enablePlanner note := by
    cases note <;> rfl
  unfold resume
  simp only [hdraft, followPlan_noted, bind_map_left, conclude_noted]
  rw [map_bind]

theorem answer_unasked (h : Plan.asksModel turn turn.intent = false) (p : Practice)
    (listening : Bool) : answer p listening turn = announce listening >>= fun _ =>
      resume p listening turn ⟨(Plan.default turn.intent).limitedTo turn, none, false⟩ := by
  rw [answer_eq]
  refine bind_congr fun _ => ?_
  rw [Plan.forTurn_unasked h, Attempt.lift_pure_bind]

theorem answer_eq_unplanned (h : Plan.asksModel turn turn.intent = false) (p : Practice)
    (listening : Bool) : answer p listening turn = answer p listening turn.unplanned := by
  have hunasked : Plan.asksModel turn.unplanned turn.unplanned.intent = false := rfl
  rw [answer_unasked h, answer_unasked hunasked]
  refine bind_congr fun _ => ?_
  have hresume := resume_noted p listening turn ((Plan.default turn.intent).limitedTo turn) none
  rw [ChatResponse.noted_none, id_map] at hresume
  exact hresume

/-- A client is gone before its turn is planned for. -/
def Deserted (listening : Bool) (acts : List Act) (r : Option (Except Failure β)) : Prop :=
  Unheard listening .classify acts r ∨
    ∃ rest, acts = told listening .classify ++ rest ∧ Unheard listening .plan rest r

theorem Deserted.left {r : Option (Except Failure α)} (h : Deserted listening acts r) :
    (r = some (.error .cancelled) ∧
        ∀ β : Type, Deserted listening acts (some (.error .cancelled : Except Failure β))) ∨
      (r = none ∧ ∀ β : Type, Deserted listening acts (none : Option (Except Failure β))) := by
  have hleft : r = some (.error .cancelled) ∨ r = none := by
    rcases h with ⟨_, hends⟩ | ⟨_, _, _, hends⟩
    · exact hends.imp And.right And.right
    · exact hends.imp And.right And.right
  refine hleft.imp ?_ ?_
  · rintro rfl
    refine ⟨rfl, fun β => ?_⟩
    simpa [Deserted, Unheard] using h
  · rintro rfl
    refine ⟨rfl, fun β => ?_⟩
    simpa [Deserted, Unheard] using h

def announced (listening : Bool) : List Act := told listening .classify ++ told listening .plan

theorem course_announce (h : Course (announce listening).run acts r) :
    (acts = announced listening ∧ r = some (.ok ())) ∨ Deserted listening acts r := by
  rcases course_report h with ⟨rest, rfl, hplan⟩ | hu
  · rcases course_report hplan with ⟨rest, rfl, hdone⟩ | hu
    · obtain ⟨rfl, hr⟩ := course_pure (a := Except.ok ()) hdone
      rw [List.append_nil]
      exact .inl ⟨rfl, hr⟩
    · exact .inr (.inr ⟨rest, rfl, hu⟩)
  · exact .inr (.inl hu)

/-- Two worlds, of which the first lets the planner of a turn fail. They hear of the turn alike until
then, and do the same from then on. -/
structure Outage (p : Practice) (turn : Turn) (e : Failure) (w : World σ) (w' : World τ)
    (Before After : σ → τ → Prop) : Prop where
  hears : ∀ {s t} (stage : Stream.Stage), Before s t →
    HeardAlike Before (w.hear stage.event s) (w'.hear stage.event t)
  fails : ∀ {s t}, Before s t → ∃ arrival outside outside',
    w.answer (.completion (p.planner.call turn turn.intent)) s = (arrival, outside) ∧
    p.planner.planOf turn turn.intent arrival = .error e ∧
    w.pass (arrival.limited (p.planner.call turn turn.intent).timeoutMs).lapse outside =
      some outside' ∧
    After outside' t
  alike : Alike w w' After
  tells : ∀ {s t} (response : ChatResponse), After s t →
    HeardAlike After (w.hear (.result (response.noted (some (Plan.outageNote e))) Stream.donePct) s)
      (w'.hear (.result response Stream.donePct) t)

variable {w : World σ} {w' : World τ} {Before After : σ → τ → Prop} {e : Failure}

theorem announce_alike (outage : Outage p turn e w w' Before After) (listening : Bool) :
    GoesAlike w w' Before (announce listening).run := by
  have hreport (stage : Stream.Stage) : GoesAlike w w' Before (report listening stage).run := by
    unfold report
    split
    · exact goesAlike_send (outage.hears stage) fun _ => goesAlike_done _
    · exact goesAlike_done _
  refine Attempt.goesAlike_bind (hreport .classify) fun _ => ?_
  exact Attempt.goesAlike_bind (hreport .plan) fun _ => goesAlike_done _

theorem forTurn_outage (outage : Outage p turn e w w' Before After)
    (hasks : Plan.asksModel turn turn.intent) {s : Scene σ} {t : Scene τ}
    (hs : Abreast True Before s t) :
    ∃ arrival s', p.planner.planOf turn turn.intent arrival = .error e ∧
      Abreast True After s' t ∧ s'.acts = s.acts ++ [p.planner.asked turn turn.intent arrival] ∧
      (Plan.forTurn p.planner turn turn.intent).run w s = (some
        ⟨(Plan.default turn.intent).limitedTo turn, some (Plan.outageNote e), true⟩, s') := by
  obtain ⟨arrival, outside, outside', hanswer, hfails, hpass, hafter⟩ := outage.fails hs.outside
  refine ⟨arrival, { s.act (p.planner.asked turn turn.intent arrival) with outside := outside' },
    hfails, ⟨hafter, hs.memory⟩, rfl, ?_⟩
  rw [Plan.run_forTurn hasks hanswer hpass, hfails, Plan.limitedTo_ofAnswer_error]

/-- A turn whose planner fails ends with the turn that asks none, or goes on beside it. -/
theorem answer_outage (outage : Outage p turn e w w' Before After)
    (hasks : Plan.asksModel turn turn.intent) {s : Scene σ} {t : Scene τ}
    (hs : Abreast True Before s t) (listening : Bool) :
    (∃ acts r s' t', (answer p listening turn).run.run w s = (r, s') ∧
        (answer p listening turn.unplanned).run.run w' t = (r, t') ∧
        s'.acts = s.acts ++ acts ∧ t'.acts = t.acts ++ acts ∧ Deserted listening acts r) ∨
      ∃ arrival rest r s' t', p.planner.planOf turn turn.intent arrival = .error e ∧
        Abreast True After s' t' ∧
        (answer p listening turn).run.run w s =
          (r.map (Except.map (ChatResponse.noted (some (Plan.outageNote e)))), s') ∧
        (answer p listening turn.unplanned).run.run w' t = (r, t') ∧
        s'.acts = s.acts ++
          (announced listening ++ p.planner.asked turn turn.intent arrival :: rest) ∧
        t'.acts = t.acts ++ (announced listening ++ rest) := by
  have hunasked : Plan.asksModel turn.unplanned turn.unplanned.intent = false := rfl
  obtain ⟨r, acts, s₁, t₁, hrun, hrun', habreast, hacts, hacts'⟩ :=
    announce_alike outage listening s t hs
  have hcourse : Course (announce listening).run acts r := by
    obtain ⟨told, htold, hcourse, _⟩ := run_course w (announce listening).run s
    rw [hrun] at htold hcourse
    obtain rfl : told = acts := List.append_cancel_left (htold.symm.trans hacts)
    exact hcourse
  rw [answer_eq, answer_unasked hunasked]
  rcases course_announce hcourse with ⟨rfl, rfl⟩ | hdeserted
  · rw [Attempt.run_bind, Attempt.run_bind, hrun, hrun']
    obtain ⟨arrival, s₂, hfails, hafter, hasked, hplan⟩ := forTurn_outage outage hasks habreast
    obtain ⟨r, rest, s₃, t₃, hresume, hresume', hlast, hrest, hrest'⟩ :=
      outage.alike.goes (resume p listening turn.unplanned
        ⟨(Plan.default turn.intent).limitedTo turn, none, false⟩).run s₂ t₁ hafter
    refine .inr ⟨arrival, rest, r, s₃, t₃, hfails, hlast, ?_, hresume', ?_, ?_⟩
    · have hnoted := resume_noted p listening turn ((Plan.default turn.intent).limitedTo turn)
        (some (Plan.outageNote e))
      simp only
      rw [ExceptT.run_bind_lift]
      change ((Plan.forTurn p.planner turn turn.intent).bind _).run w s₁ = _
      rw [Dialogue.run_bind, hplan]
      change (resume p listening turn ⟨_, some (Plan.outageNote e), true⟩).run.run w s₂ = _
      rw [Option.isSome_some] at hnoted
      rw [hnoted, Attempt.run_map, hresume]
    · rw [hrest, hasked, hacts, List.append_assoc, List.append_assoc]
      rfl
    · rw [hrest', hacts', List.append_assoc]
  · rw [Attempt.run_bind, Attempt.run_bind, hrun, hrun']
    rcases hdeserted.left with ⟨rfl, hgone⟩ | ⟨rfl, hgone⟩
    · exact .inl ⟨acts, _, s₁, t₁, rfl, rfl, hacts, hacts', hgone _⟩
    · exact .inl ⟨acts, _, s₁, t₁, rfl, rfl, hacts, hacts', hgone _⟩

theorem noted_open (h : Open a) : a.noted note = a := by
  cases a with
  | asked q arrival => rfl
  | sent event heard =>
      cases event with
      | result response pct => cases h
      | _ => rfl

def tell (result : Except Failure ChatResponse) : Attempt Unit :=
  match lastEvent? result with
  | some event => Attempt.send event
  | none => throw .cancelled

theorem run_stream (w : World σ) (p : Practice) (turn : Turn) (s : Scene σ) :
    (stream p turn).run.run w s =
      match (answer p true turn).run.run w s with
      | (some result, t) => (tell result).run.run w t
      | (none, t) => (none, t) := by
  change (ExceptT.lift (answer p true turn).run >>= tell).run.run w s = _
  rw [ExceptT.run_bind_lift]
  change ((answer p true turn).run.bind _).run w s = _
  rw [Dialogue.run_bind]
  generalize (answer p true turn).run.run w s = run
  obtain ⟨r, t⟩ := run
  cases r <;> rfl

theorem lastEvent?_noted (note : Option String) (result : Except Failure ChatResponse) :
    lastEvent? (result.map (ChatResponse.noted note)) = (lastEvent? result).map (.noted note) := by
  cases result with
  | ok response => rfl
  | error e => cases e <;> rfl

theorem lastEvent_alike (outage : Outage p turn e w w' Before After) (hafter : After s t)
    (h : lastEvent? result = some event) :
    HeardAlike After (w.hear (event.noted (some (Plan.outageNote e))) s) (w'.hear event t) := by
  cases result with
  | ok response =>
      obtain rfl := Option.some.inj h
      exact outage.tells response hafter
  | error why =>
      by_cases hcancelled : why = .cancelled
      · rw [hcancelled] at h
        cases h
      · rw [lastEvent?_error hcancelled] at h
        obtain rfl := Option.some.inj h
        exact outage.alike.hears _ hafter

theorem tell_outage (outage : Outage p turn e w w' Before After) {s : Scene σ} {t : Scene τ}
    (hs : Abreast True After s t) (result : Except Failure ChatResponse) :
    ∃ r last s' t',
      (tell (result.map (ChatResponse.noted (some (Plan.outageNote e))))).run.run w s = (r, s') ∧
      (tell result).run.run w' t = (r, t') ∧
      s'.acts = s.acts ++ last.map (Act.noted (some (Plan.outageNote e))) ∧
      t'.acts = t.acts ++ last := by
  unfold tell
  rw [lastEvent?_noted]
  cases hlast : lastEvent? result with
  | none =>
      exact ⟨some (.error .cancelled), [], s, t, rfl, rfl, (List.append_nil _).symm,
        (List.append_nil _).symm⟩
  | some event =>
      have hheard := lastEvent_alike outage hs.outside hlast
      simp only [Option.map_some, Attempt.send, ExceptT.run_mk]
      rcases run_send_alike _ _ hheard with
        ⟨hrun, hrun'⟩ | ⟨heard, outside, outside', _, hrun, hrun'⟩
      · exact ⟨none, [], s, t, hrun, hrun', (List.append_nil _).symm, (List.append_nil _).symm⟩
      · exact ⟨_, [.sent event heard], _, _, hrun, hrun', rfl, rfl⟩

/-- How a turn whose planner fails goes beside the turn that asks none: up to the planner alike, and after
it the same, but that the response has a note. -/
inductive Degrades (p : Practice) (turn : Turn) (e : Failure) (listening : Bool) (note : β → β) :
    Option (Except Failure β) → List Act → Option (Except Failure β) → List Act → Prop
  | deserted (h : Deserted listening acts r) : Degrades p turn e listening note r acts r acts
  | noted (arrival : Arrival Reply)
      (fails : p.planner.planOf turn turn.intent arrival = .error e) (rest : List Act)
      (same : result = r.map (Except.map note)) :
      Degrades p turn e listening note result
        (announced listening ++ p.planner.asked turn turn.intent arrival ::
          rest.map (Act.noted (some (Plan.outageNote e))))
        r (announced listening ++ rest)

theorem rest_noted {t t' : Scene τ} (hrun : (answer p listening turn).run.run w' t = (r, t'))
    (hacts : t'.acts = t.acts ++ (before ++ rest)) (note : Option String) :
    rest.map (Act.noted note) = rest := by
  obtain ⟨acts, hacts', hcourse, _⟩ := run_course w' (answer p listening turn).run t
  rw [hrun] at hacts' hcourse
  obtain rfl : acts = before ++ rest := List.append_cancel_left (hacts'.symm.trans hacts)
  have hopen (a : Act) (ha : a ∈ rest) : a.noted note = a :=
    noted_open (answer_open p listening turn _ _ hcourse a (List.mem_append_right before ha))
  rw [List.map_congr_left hopen]
  exact List.map_id rest

theorem answer_degrades (outage : Outage p turn e w w' Before After)
    (hasks : Plan.asksModel turn turn.intent) {s : Scene σ} {t : Scene τ}
    (hs : Abreast True Before s t) (listening : Bool) :
    ∃ acts acts', ((answer p listening turn).run.run w s).2.acts = s.acts ++ acts ∧
      ((answer p listening turn.unplanned).run.run w' t).2.acts = t.acts ++ acts' ∧
      Degrades p turn e listening (ChatResponse.noted (some (Plan.outageNote e)))
        ((answer p listening turn).run.run w s).1 acts
        ((answer p listening turn.unplanned).run.run w' t).1 acts' := by
  rcases answer_outage outage hasks hs listening with
    ⟨acts, r, s', t', hrun, hrun', hacts, hacts', hdeserted⟩ |
    ⟨arrival, rest, r, s', t', hfails, _, hrun, hrun', hacts, hacts'⟩
  · rw [hrun, hrun']
    exact ⟨acts, acts, hacts, hacts', .deserted hdeserted⟩
  · have hrest := rest_noted hrun' hacts' (some (Plan.outageNote e))
    rw [hrun, hrun']
    refine ⟨_, _, hacts, hacts', ?_⟩
    have hnoted : Degrades p turn e listening (ChatResponse.noted (some (Plan.outageNote e))) _ _ r
      (announced listening ++ rest) := .noted arrival hfails rest rfl
    rw [hrest] at hnoted
    exact hnoted

theorem stream_degrades (outage : Outage p turn e w w' Before After)
    (hasks : Plan.asksModel turn turn.intent) {s : Scene σ} {t : Scene τ}
    (hs : Abreast True Before s t) :
    ∃ acts acts', ((stream p turn).run.run w s).2.acts = s.acts ++ acts ∧
      ((stream p turn.unplanned).run.run w' t).2.acts = t.acts ++ acts' ∧
      Degrades p turn e true id ((stream p turn).run.run w s).1 acts
        ((stream p turn.unplanned).run.run w' t).1 acts' := by
  rw [run_stream, run_stream]
  rcases answer_outage outage hasks hs true with
    ⟨acts, r, s', t', hrun, hrun', hacts, hacts', hdeserted⟩ |
    ⟨arrival, rest, r, s', t', hfails, habreast, hrun, hrun', hacts, hacts'⟩
  · rw [hrun, hrun']
    rcases hdeserted.left with ⟨rfl, hgone⟩ | ⟨rfl, hgone⟩
    · exact ⟨acts, acts, hacts, hacts', .deserted (hgone _)⟩
    · exact ⟨acts, acts, hacts, hacts', .deserted (hgone _)⟩
  · have hrest := rest_noted hrun' hacts' (some (Plan.outageNote e))
    rw [hrun, hrun']
    cases r with
    | none =>
        have hnoted : Degrades p turn e true id none _ (none : Option (Except Failure Unit))
          (announced true ++ rest) := .noted arrival hfails rest rfl
        rw [hrest] at hnoted
        exact ⟨_, _, hacts, hacts', hnoted⟩
    | some result =>
        obtain ⟨r, last, s'', t'', htell, htell', hlast, hlast'⟩ :=
          tell_outage outage habreast result
        have hsame : r = r.map (Except.map id) := by
          rcases r with _ | _ | _ <;> rfl
        have hnoted : Degrades p turn e true id r _ r (announced true ++ (rest ++ last)) :=
          .noted arrival hfails (rest ++ last) hsame
        rw [List.map_append, hrest] at hnoted
        simp only [Option.map_some, htell, htell']
        refine ⟨_, _, ?_, ?_, hnoted⟩
        · rw [hlast, hacts]
          simp
        · rw [hlast', hacts']
          simp

/-- A planner that fails costs a turn no more than a call and a note. What it comes to, and all that is asked
and told after, is what the turn would come to for a user who wants no planner. Small talk is never
planned for by a model. -/
theorem planner_outage (p : Practice) (turn : Turn) :
    (turn.intent = .smalltalk →
      (∀ listening, answer p listening turn = answer p listening turn.unplanned) ∧
        stream p turn = stream p turn.unplanned) ∧
    ∀ {σ τ : Type} {w : World σ} {w' : World τ} {Before After : σ → τ → Prop} {e : Failure},
      turn.enablePlanner → turn.intent ≠ .smalltalk → Outage p turn e w w' Before After →
      ∀ s t, Abreast True Before s t →
        (∀ listening, ∃ acts acts',
          ((answer p listening turn).run.run w s).2.acts = s.acts ++ acts ∧
          ((answer p listening turn.unplanned).run.run w' t).2.acts = t.acts ++ acts' ∧
          Degrades p turn e listening (ChatResponse.noted (some (Plan.outageNote e)))
            ((answer p listening turn).run.run w s).1 acts
            ((answer p listening turn.unplanned).run.run w' t).1 acts') ∧
        ∃ acts acts', ((stream p turn).run.run w s).2.acts = s.acts ++ acts ∧
          ((stream p turn.unplanned).run.run w' t).2.acts = t.acts ++ acts' ∧
          Degrades p turn e true id ((stream p turn).run.run w s).1 acts
            ((stream p turn.unplanned).run.run w' t).1 acts' := by
  constructor
  · intro hsmall
    have hunasked : Plan.asksModel turn turn.intent = false := by
      rw [Plan.asksModel, hsmall]
      simp
    refine ⟨fun listening => answer_eq_unplanned hunasked p listening, ?_⟩
    unfold stream
    rw [answer_eq_unplanned hunasked]
  · intro σ τ w w' Before After e henabled hintent outage s t hs
    have hasks : Plan.asksModel turn turn.intent := by
      rw [Plan.asksModel, henabled, Bool.true_and, bne_iff_ne]
      exact hintent
    exact ⟨answer_degrades outage hasks hs, stream_degrades outage hasks hs⟩

theorem outage_blank (turn : Turn) :
    Outage .plain turn (.planner "empty planner response")
      (World.replying (fun _ => ⟨"", "", "", []⟩) []) (World.replying (fun _ => ⟨"", "", "", []⟩) [])
      (fun _ _ => True) fun _ _ => True where
  hears _ _ := .some ⟨rfl, trivial⟩
  fails _ := ⟨_, _, _, rfl, Plan.planOf_blank rfl, rfl, trivial⟩
  alike :=
    { answers := fun _ _ => ⟨rfl, trivial⟩
      waits := fun _ _ => .some trivial
      hears := fun _ _ => .some ⟨rfl, trivial⟩
      today := fun _ => rfl
      instant := fun _ => rfl }
  tells _ _ := .some ⟨rfl, trivial⟩

theorem planner_outage_blank :
    ∃ response response' s t,
      (answer .plain false (.plain "tell me about the weather")).run.run
        (World.replying (fun _ => ⟨"", "", "", []⟩) []) ⟨(), .empty, []⟩ =
          (some (.ok response), s) ∧
      (answer .plain false (Turn.plain "tell me about the weather").unplanned).run.run
        (World.replying (fun _ => ⟨"", "", "", []⟩) []) ⟨(), .empty, []⟩ =
          (some (.ok response'), t) ∧
      response = response'.noted
        (some "planner unavailable, default plan used: Planner error: empty planner response") := by
  obtain ⟨response, s, hrun, _⟩ := Attempt.exists_of_run (fun _ => true)
    (x := answer .plain false (.plain "tell me about the weather"))
    (w := World.replying (fun _ => ⟨"", "", "", []⟩) []) (s := ⟨(), .empty, []⟩) (by decide +kernel)
  obtain ⟨_, _, _, _, hdegrades⟩ :=
    ((planner_outage .plain (.plain "tell me about the weather")).2 rfl (by decide +kernel)
      (outage_blank _) ⟨(), .empty, []⟩ ⟨(), .empty, []⟩ ⟨trivial, fun _ => rfl⟩).1 false
  generalize (answer .plain false (Turn.plain "tell me about the weather").unplanned).run.run
    (World.replying (fun _ => ⟨"", "", "", []⟩) []) ⟨(), .empty, []⟩ = run at hdegrades ⊢
  obtain ⟨r, t⟩ := run
  rw [hrun] at hdegrades
  cases hdegrades with
  | deserted h => rcases h.left with ⟨he, _⟩ | ⟨he, _⟩ <;> cases he
  | noted arrival fails rest same =>
      rcases r with _ | why | response'
      · cases same
      · cases same
      · exact ⟨response, response', s, t, hrun, rfl, Except.ok.inj (Option.some.inj same)⟩

end Consultation

end Advisor

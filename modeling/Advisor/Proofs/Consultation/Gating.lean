import Advisor.Proofs.Consultation.Stages

namespace Advisor

open Dialogue Advisor.Stream

theorem Stream.Relayed.inquiries (h : Relayed acts) : inquiries acts = [] := by
  induction h with
  | nothing | usage => rfl
  | delta text pct heard rest ih => exact ih

theorem Plan.limited_of_forTurn {planner : Planner} {turn : Turn} {intent : Intent}
    {planned : Planned}
    (h : Course (forTurn planner turn intent) acts (some planned)) :
    (planned.plan.needWiki → turn.enableWiki) ∧ (planned.plan.needWeb → turn.enableWeb) := by
  have hlimited (planned : Planned) : ((planned.limitedTo turn).plan.needWiki → turn.enableWiki) ∧
      ((planned.limitedTo turn).plan.needWeb → turn.enableWeb) := by
    simp [Planned.limitedTo, Plan.limitedTo]
  rcases course_forTurn h with ⟨_, _, he⟩ | ⟨_, arrival, _, he⟩
  · cases he
    exact hlimited _
  · rw [he planned rfl]
    exact hlimited _

namespace Consultation

theorem inquiries_told : inquiries (told listening stage) = [] := by
  cases listening <;> rfl

theorem inquiries_unheard {r : Option (Except Failure β)} (h : Unheard listening stage acts r) :
    inquiries acts = [] := by
  obtain ⟨_, ⟨rfl, _⟩ | ⟨rfl, _⟩⟩ := h <;> rfl

theorem generate_asks (intent : Intent) (locale : Locale)
    (h : Course (generate p listening call).run acts r) :
    ∀ a ∈ inquiries acts, a.Asks (Answer.IsFor call p.timeouts.stream intent locale) := by
  intro a ha
  cases listening with
  | true =>
      obtain ⟨arrival, told, rfl, relayed, _⟩ := course_generate_listening h
      have hone : inquiries
          (.asked (.stream { call with timeoutMs := p.timeouts.stream }) arrival :: told) =
            [.asked (.stream { call with timeoutMs := p.timeouts.stream }) arrival] :=
        congrArg (List.cons _) relayed.inquiries
      rw [hone, List.mem_singleton] at ha
      exact ⟨_, arrival, ha, .inr (.inl rfl)⟩
  | false =>
      obtain ⟨arrival, rfl, _⟩ := course_generate_silent h
      exact ⟨_, arrival, List.mem_singleton.1 ha, .inl rfl⟩

theorem settle_asks (h : Course (settle p listening d plan call first).run acts r) :
    ∀ a ∈ inquiries acts,
      a.Asks (Answer.IsFor call p.timeouts.stream plan.intent d.turn.locale) := by
  intro a ha
  rcases course_settle h with ⟨rest, rfl, hj⟩ | ⟨_, hu⟩
  · have htold : inquiries (if (Answer.refusal? p.rules plan.intent first.answer).isSome then
        told listening .retry else []) = [] := by
      split
      · exact inquiries_told
      · rfl
    rw [inquiries_append, htold, List.nil_append] at ha
    have hasks := Answer.asks_checked p.rules call p.timeouts.stream first plan.intent d.turn.locale
    rcases hj with ⟨c, before, after, rfl, hc, hp⟩ | ⟨_, hc⟩
    · obtain ⟨rfl, _⟩ := course_pure (a := Except.ok _) hp
      rw [List.append_nil, hasks.inquiries hc] at ha
      exact hasks.course hc a ha
    · rw [hasks.inquiries hc] at ha
      exact hasks.course hc a ha
  · rw [inquiries_unheard hu] at ha
    cases ha

/-- What is asked for the answer that a briefing leads to: nothing, unless a call came of it. -/
def Answering (p : Practice) (r : Option (Except Failure Briefing)) (answering : List Act) : Prop :=
  answering = [] ∨ ∃ d plan call, r = some (.ok (.call d plan call)) ∧ ∀ a ∈ answering,
    a.Asks (Answer.IsFor call p.timeouts.stream plan.intent d.turn.locale)

theorem conclude_asks (h : Course (conclude p listening briefing).run acts r) :
    Answering p (some (.ok briefing)) (inquiries acts) := by
  cases briefing with
  | reply response =>
      obtain ⟨rfl, _⟩ := course_pure (a := Except.ok _) h
      exact .inl rfl
  | call d plan call =>
      refine .inr ⟨d, plan, call, rfl, fun a ha => ?_⟩
      rcases course_answerByModel h with ⟨first, before, after, rfl, hg, hs⟩ | ⟨e, _, hg⟩ | ⟨_, hg⟩
      · rw [inquiries_append] at ha
        rcases List.mem_append.1 ha with ha | ha
        · exact generate_asks _ _ hg a ha
        · exact settle_asks (d := d.called) hs a ha
      · exact generate_asks _ _ hg a ha
      · exact generate_asks _ _ hg a ha

/-- Whom a turn asks that has its plan, in this order: the account, the index, the web, the texts
and the model, and what each of them takes. -/
structure Gated (p : Practice) (turn : Turn) (plan : Plan)
    (account index web texts answering : List Act) : Prop where
  consulted : ∀ a ∈ account, a.Asks (Question.About .account) ∧
    Account.concerns plan.intent turn.userMessage ∧
    plan.intent ≠ .smalltalk ∧ plan.intent ≠ .productHelp
  /-- The index is asked one question and is not asked for any text. -/
  indexed : index = [] ∨ p.library.hasIndex ∧ turn.enableWiki ∧ plan.needWiki ∧
    plan.intent ≠ .smalltalk ∧ ∃ arrival, index = [.asked
      (.index turn.wikiRepo turn.locale turn.userMessage plan.intent Knowledge.topPages) arrival]
  searched : ∀ a ∈ web, a.Asks (Question.About .web) ∧
    turn.enableWeb ∧ plan.needWeb ∧ plan.intent ≠ .smalltalk
  fetched : ∀ a ∈ texts, a.Asks Knowledge.IsText ∧
    turn.enableWiki ∧ plan.needWiki ∧ plan.intent ≠ .smalltalk
  /-- The texts are fetched when there is no index, or it failed, or had no snippet. -/
  unindexed : texts ≠ [] → p.library.hasIndex = false ∨ ∃ arrival, index = [.asked
      (.index turn.wikiRepo turn.locale turn.userMessage plan.intent Knowledge.topPages) arrival] ∧
    ∀ found, arrival.result = .ok found → found.snippets = []
  answered : ∃ view found, ∀ a ∈ answering, a.Asks (Answer.IsFor
    (answerCall p turn plan view found) p.timeouts.stream plan.intent turn.locale)
  clarified : plan.question?.isSome → account ++ index ++ web ++ texts ++ answering = []
  refused : ∀ view, (preflightOf turn plan view).status = .fail →
    index ++ web ++ texts ++ answering = []

def Uncalled (r : Option (Except Failure Briefing)) : Prop :=
  ∀ d plan call, r ≠ some (.ok (.call d plan call))

/-- Whom a turn asks after the check of its scan, and what comes of it. -/
structure Pursuit (p : Practice) (turn : Turn) (plan : Plan) (index web texts : List Act)
    (r : Option (Except Failure Briefing)) : Prop where
  sought : Knowledge.Sought p.library plan turn index web texts
  unsought : plan.intent = .smalltalk → index ++ web ++ texts = []
  called : ∀ d plan' call, r = some (.ok (.call d plan' call)) →
    plan' = plan ∧ d.turn = turn ∧ ∃ view found, call = answerCall p turn plan view found

theorem Pursuit.nothing (hr : Uncalled r) : Pursuit p turn plan [] [] [] r where
  sought := ⟨.inl rfl, by simp, by simp, by simp⟩
  unsought _ := rfl
  called d plan' call h := absurd h (hr d plan' call)

theorem Unheard.uncalled (h : Unheard listening stage acts r) : Uncalled r := by
  obtain ⟨_, ⟨_, rfl⟩ | ⟨_, rfl⟩⟩ := h <;> intro d plan call he <;> cases he

theorem inform_asks {view : Account.View}
    (hwanted : d.trail.accountWanted = Account.concerns plan.intent d.turn.userMessage)
    (h : Course (inform p listening d plan { d.turn.context.scopedTo plan with account := view }
      (preflightOf d.turn plan view)).run acts r) :
    ∃ index web texts, inquiries acts = index ++ web ++ texts ∧
      Pursuit p d.turn plan index web texts r := by
  rcases course_inform hwanted h with ⟨rest, rfl, hfound⟩ | hu
  · rw [inquiries_append, inquiries_told, List.nil_append]
    have hasks := Knowledge.asks_findings p.library plan d.turn
    rcases hfound with ⟨found, before, after, rfl, hf, ⟨rfl, hr⟩ | hu⟩ | ⟨rfl, hf⟩
    · obtain ⟨index, web, texts, rfl, hsought, hsmall⟩ := Knowledge.course_findings hf
      refine ⟨index, web, texts, ?_, hsought, hsmall, ?_⟩
      · rw [inquiries_append, hasks.inquiries hf, inquiries_told, List.append_nil]
      · rintro d' plan' call rfl
        cases hr
        exact ⟨rfl, rfl, view, found, rfl⟩
    · obtain ⟨index, web, texts, rfl, hsought, hsmall⟩ := Knowledge.course_findings hf
      refine ⟨index, web, texts, ?_, hsought, hsmall, fun d' plan' call he => ?_⟩
      · rw [inquiries_append, hasks.inquiries hf, inquiries_unheard hu, List.append_nil]
      · exact absurd he (hu.uncalled d' plan' call)
    · obtain ⟨index, web, texts, rfl, hsought, hsmall⟩ := Knowledge.course_findings hf
      exact ⟨index, web, texts, hasks.inquiries hf, hsought, hsmall, by simp⟩
  · exact ⟨[], [], [], inquiries_unheard hu, .nothing hu.uncalled⟩

theorem check_asks {d : Draft} {view : Account.View}
    (h : Course (check p listening
      (d.acquainted (Account.concerns plan.intent d.turn.userMessage) view) plan
      { d.turn.context.scopedTo plan with account := view }).run acts r) :
    ∃ index web texts, inquiries acts = index ++ web ++ texts ∧
      Pursuit p d.turn plan index web texts r ∧
      ((preflightOf d.turn plan view).status = .fail →
        index ++ web ++ texts = [] ∧ Uncalled r) := by
  rcases course_check h with ⟨rest, rfl, hcheck⟩ | hu
  · rw [inquiries_append, inquiries_told, List.nil_append]
    rcases hcheck with ⟨_, rfl, rfl⟩ | ⟨hpasses, hi⟩
    · have hr (response : ChatResponse) : Uncalled (some (.ok (.reply response))) := by
        intro d plan call he
        cases he
      exact ⟨[], [], [], rfl, .nothing (hr _), fun _ => ⟨rfl, hr _⟩⟩
    · obtain ⟨index, web, texts, hsplit, hpursuit⟩ := inform_asks rfl hi
      exact ⟨index, web, texts, hsplit, hpursuit, fun hfails => absurd hfails hpasses⟩
  · exact ⟨[], [], [], inquiries_unheard hu, .nothing hu.uncalled, fun _ => ⟨rfl, hu.uncalled⟩⟩

theorem concerns_intent (h : Account.concerns intent message) :
    intent ≠ .smalltalk ∧ intent ≠ .productHelp := by
  cases intent with
  | smalltalk | productHelp => cases h
  | _ => exact ⟨by decide, by decide⟩

theorem accountFor_asked (h : Course (accountFor wanted own locale) acts r) :
    inquiries acts = acts ∧ ∀ a ∈ acts, a.Asks (Question.About .account) ∧ wanted := by
  have hasks := asks_accountFor wanted own locale
  refine ⟨hasks.inquiries h, ?_⟩
  intro a ha
  obtain ⟨q, arrival, rfl, habout, hwanted⟩ := hasks.course h a ha
  exact ⟨⟨q, arrival, rfl, habout⟩, hwanted⟩

theorem Pursuit.not_smalltalk (h : Pursuit p turn plan index web texts r)
    (ha : a ∈ index ++ web ++ texts) : plan.intent ≠ .smalltalk := by
  intro hsmall
  rw [h.unsought hsmall] at ha
  cases ha

theorem Pursuit.gated (h : Pursuit p turn plan index web texts r)
    (hquestion : plan.question? = none) (hwiki : plan.needWiki → turn.enableWiki)
    (hweb : plan.needWeb → turn.enableWeb)
    (haccount : ∀ a ∈ account, a.Asks (Question.About .account) ∧
      Account.concerns plan.intent turn.userMessage)
    (hrefused : ∀ view, (preflightOf turn plan view).status = .fail →
      index ++ web ++ texts = [] ∧ Uncalled r)
    (hanswering : Answering p r answering) :
    Gated p turn plan account index web texts answering where
  consulted a ha := ⟨(haccount a ha).1, (haccount a ha).2, concerns_intent (haccount a ha).2⟩
  indexed := by
    rcases h.sought.indexed with rfl | ⟨hneed, hasIndex, arrival, rfl⟩
    · exact .inl rfl
    · have hsmall := h.not_smalltalk (List.mem_append_left texts (List.mem_append_left web (.head _)))
      exact .inr ⟨hasIndex, hwiki hneed, hneed, hsmall, arrival, rfl⟩
  searched a ha := by
    obtain ⟨hneed, hasks⟩ := h.sought.searched a ha
    have hsmall := h.not_smalltalk (List.mem_append_left texts (List.mem_append_right index ha))
    exact ⟨hasks, hweb hneed, hneed, hsmall⟩
  fetched a ha := by
    obtain ⟨hneed, hasks⟩ := h.sought.fetched a ha
    exact ⟨hasks, hwiki hneed, hneed, h.not_smalltalk (List.mem_append_right (index ++ web) ha)⟩
  unindexed := h.sought.unindexed
  answered := by
    rcases hanswering with rfl | ⟨d, plan', call, hr, hasks⟩
    · exact ⟨.empty, default, by simp⟩
    · obtain ⟨rfl, rfl, view, found, rfl⟩ := h.called d plan' call hr
      exact ⟨view, found, hasks⟩
  clarified hsome := by
    rw [hquestion] at hsome
    cases hsome
  refused view hfails := by
    obtain ⟨hnone, huncalled⟩ := hrefused view hfails
    rw [hnone, List.nil_append]
    rcases hanswering with rfl | ⟨d, plan', call, hr, _⟩
    · rfl
    · exact absurd hr (huncalled d plan' call)

theorem scope_gated (hquestion : plan.question? = none) (hwiki : plan.needWiki → d.turn.enableWiki)
    (hweb : plan.needWeb → d.turn.enableWeb) (h : Course (scope p listening d plan).run acts r) :
    ∃ account index web texts, inquiries acts = account ++ index ++ web ++ texts ∧
      ∀ answering, Answering p r answering →
        Gated p d.turn plan account index web texts answering := by
  rcases course_scope h with ⟨rest, rfl, hj⟩ | hu
  · rw [inquiries_append, inquiries_told, List.nil_append]
    rcases hj with ⟨view, account, after, rfl, hv, hc⟩ | ⟨rfl, hv⟩
    · obtain ⟨hall, haccount⟩ := accountFor_asked hv
      obtain ⟨index, web, texts, hsplit, hpursuit, hrefused⟩ := check_asks hc
      refine ⟨account, index, web, texts, ?_, fun answering =>
        hpursuit.gated hquestion hwiki hweb haccount fun view' hfails => hrefused ?_⟩
      · rw [inquiries_append, hall, hsplit]
        simp only [List.append_assoc]
      · exact preflightOf_fails hfails
    · obtain ⟨hall, haccount⟩ := accountFor_asked hv
      have hr : Uncalled none := by
        intro d plan call he
        cases he
      refine ⟨rest, [], [], [], by simp [hall], fun answering => ?_⟩
      exact (Pursuit.nothing hr).gated hquestion hwiki hweb haccount fun _ _ => ⟨rfl, hr⟩
  · refine ⟨[], [], [], [], inquiries_unheard hu, fun answering => ?_⟩
    exact (Pursuit.nothing hu.uncalled).gated hquestion hwiki hweb (by simp)
      fun _ _ => ⟨rfl, hu.uncalled⟩

theorem followPlan_gated (hwiki : plan.needWiki → d.turn.enableWiki)
    (hweb : plan.needWeb → d.turn.enableWeb)
    (h : Course (followPlan p listening d plan).run acts r) :
    ∃ account index web texts, inquiries acts = account ++ index ++ web ++ texts ∧
      ∀ answering, Answering p r answering →
        Gated p d.turn plan account index web texts answering := by
  rcases course_followPlan h with ⟨question, _, rfl, rfl⟩ | ⟨hquestion, hp⟩
  · refine ⟨[], [], [], [], rfl, ?_⟩
    rintro answering (rfl | ⟨d, plan, call, he, _⟩)
    · exact ⟨by simp, .inl rfl, by simp, by simp, by simp, ⟨.empty, default, by simp⟩, fun _ => rfl,
        fun _ _ => rfl⟩
    · cases he
  · exact scope_gated hquestion hwiki hweb hp

/-- What is asked for a plan: nothing, or the planner's one question. -/
def Planning (p : Practice) (turn : Turn) (asked : List Act) : Prop :=
  asked = [] ∨ turn.enablePlanner ∧ turn.intent ≠ .smalltalk ∧
    ∃ arrival, asked = [.asked (.completion (p.planner.call turn turn.intent)) arrival]

theorem prepare_planning (h : Course (prepare p listening turn).run acts r) :
    Planning p turn (inquiries acts) := by
  have planning {acts : List Act} {r : Option Plan.Planned}
      (h : Course (Plan.forTurn p.planner turn turn.intent) acts r) : Planning p turn acts := by
    rcases Plan.course_forTurn h with ⟨_, rfl, _⟩ | ⟨hasks, arrival, rfl, _⟩
    · exact .inl rfl
    · have hboth : turn.enablePlanner ∧ turn.intent ≠ .smalltalk := by
        simpa [Plan.asksModel] using hasks
      exact .inr ⟨hboth.1, hboth.2, arrival, rfl⟩
  rcases course_prepare h with ⟨acts, rfl, hp⟩ | ⟨rest, rfl, hu⟩ | hu
  · have hall : inquiries (told listening .classify ++ (told listening .plan ++ acts)) =
        inquiries acts := by
      rw [inquiries_append, inquiries_append, inquiries_told, inquiries_told]
      rfl
    rw [hall]
    rcases hp with ⟨planned, _, hp⟩ | ⟨_, hp⟩
    · rw [(Plan.asks_forTurn ..).inquiries hp]
      exact planning hp
    · rw [(Plan.asks_forTurn ..).inquiries hp]
      exact planning hp
  · rw [inquiries_append, inquiries_told, inquiries_unheard hu]
    exact .inl rfl
  · rw [inquiries_unheard hu]
    exact .inl rfl

theorem prepare_limited (h : Course (prepare p listening turn).run acts (some (.ok planned))) :
    (planned.plan.needWiki → turn.enableWiki) ∧ (planned.plan.needWeb → turn.enableWeb) := by
  rcases course_prepare h with ⟨planning, _, hp⟩ | ⟨rest, _, hu⟩ | hu
  · rcases hp with ⟨planned', he, hp⟩ | ⟨he, _⟩
    · cases he
      exact Plan.limited_of_forTurn hp
    · cases he
  · obtain ⟨_, ⟨_, he⟩ | ⟨_, he⟩⟩ := hu <;> cases he
  · obtain ⟨_, ⟨_, he⟩ | ⟨_, he⟩⟩ := hu <;> cases he

/-- The questions of a turn, given how its preparation went: those for its plan, and those that a
plan lets it ask. -/
def Restrained (p : Practice) (turn : Turn)
    (prepared : Option (Except Failure Plan.Planned) × Scene σ) (s : Scene σ) : Prop :=
  Planning p turn (inquiries prepared.2.acts) ∧
    match prepared.1 with
    | some (.ok planned) => ∃ account index web texts answering,
        inquiries s.acts =
          inquiries prepared.2.acts ++ (account ++ index ++ web ++ texts ++ answering) ∧
        Gated p turn planned.plan account index web texts answering
    | _ => inquiries s.acts = inquiries prepared.2.acts

theorem conclude_inquiries (w : World σ) (p : Practice) (listening : Bool) (x : Attempt Briefing)
    (s : Scene σ) :
    ∃ answering, Answering p (x.run.run w s).1 answering ∧
      inquiries ((x >>= conclude p listening).run.run w s).2.acts =
        inquiries (x.run.run w s).2.acts ++ answering := by
  rw [Attempt.run_bind]
  cases x.run.run w s with
  | mk r after =>
      cases r with
      | none => exact ⟨[], .inl rfl, by simp⟩
      | some result =>
          cases result with
          | error e => exact ⟨[], .inl rfl, by simp⟩
          | ok briefing =>
              obtain ⟨acts, hacts, hcourse, _⟩ :=
                run_course w (conclude p listening briefing).run after
              refine ⟨inquiries acts, conclude_asks hcourse, ?_⟩
              rw [hacts, inquiries_append]

theorem answer_restrained (w : World σ) (p : Practice) (listening : Bool) (turn : Turn)
    (outside : σ) (memory : Memory) :
    Restrained p turn ((prepare p listening turn).run.run w ⟨outside, memory, []⟩)
      ((answer p listening turn).run.run w ⟨outside, memory, []⟩).2 := by
  obtain ⟨acts, hacts, hcourse, _⟩ :=
    run_course w (prepare p listening turn).run ⟨outside, memory, []⟩
  obtain ⟨answering, hanswering, hsplit⟩ :=
    conclude_inquiries w p listening (brief p listening turn) ⟨outside, memory, []⟩
  have hbrief := Attempt.run_bind w (prepare p listening turn) (fun planned =>
    followPlan p listening ((Draft.start turn).planned planned) planned.plan) ⟨outside, memory, []⟩
  rw [← brief] at hbrief
  rw [hbrief] at hanswering hsplit
  unfold Restrained answer
  rw [hsplit]
  cases hprepare : (prepare p listening turn).run.run w ⟨outside, memory, []⟩ with
  | mk prepared between =>
      rw [hprepare] at hacts hcourse hanswering
      rw [List.nil_append] at hacts
      refine ⟨?_, ?_⟩
      · rw [hacts]
        exact prepare_planning hcourse
      · cases prepared with
        | none =>
            rcases hanswering with rfl | ⟨d, plan, call, hr, _⟩
            · exact List.append_nil _
            · cases hr
        | some prepared =>
            cases prepared with
            | error e =>
                rcases hanswering with rfl | ⟨d, plan, call, hr, _⟩
                · exact List.append_nil _
                · cases hr
            | ok planned =>
                obtain ⟨acts', hacts', hcourse', _⟩ := run_course w (followPlan p listening
                  ((Draft.start turn).planned planned) planned.plan).run between
                obtain ⟨hwiki, hweb⟩ := prepare_limited hcourse
                obtain ⟨account, index, web, texts, hfollow, hgated⟩ :=
                  followPlan_gated hwiki hweb hcourse'
                refine ⟨account, index, web, texts, answering, ?_, hgated answering hanswering⟩
                simp only
                rw [hacts', inquiries_append, hfollow, List.append_assoc]

theorem stream_inquiries (w : World σ) (p : Practice) (turn : Turn) (s : Scene σ) :
    inquiries ((stream p turn).run.run w s).2.acts =
      inquiries ((answer p true turn).run.run w s).2.acts := by
  obtain ⟨told, htold, hsent⟩ := stream_acts w p turn s
  have hnone : inquiries told = [] := by
    rw [inquiries, List.filter_eq_nil_iff]
    intro a ha
    obtain ⟨event, heard, _, rfl⟩ := hsent a ha
    exact Bool.false_ne_true
  rw [htold, inquiries_append, hnone, List.append_nil]

/-- In every run, with a client that waits for the answer or one that listens, each collaborator is
asked only where the user and the final plan let it be. -/
theorem turn_restrained (w : World σ) (p : Practice) (turn : Turn) (outside : σ) (memory : Memory) :
    Restrained p turn ((prepare p false turn).run.run w ⟨outside, memory, []⟩)
        ((answer p false turn).run.run w ⟨outside, memory, []⟩).2 ∧
      Restrained p turn ((prepare p true turn).run.run w ⟨outside, memory, []⟩)
        ((stream p turn).run.run w ⟨outside, memory, []⟩).2 := by
  refine ⟨answer_restrained w p false turn outside memory, ?_⟩
  have hanswer := answer_restrained w p true turn outside memory
  unfold Restrained at hanswer ⊢
  rw [stream_inquiries]
  exact hanswer

end Consultation

end Advisor

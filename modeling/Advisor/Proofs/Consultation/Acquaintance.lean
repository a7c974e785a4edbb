import Advisor.Proofs.Consultation.Accounting
import Advisor.Proofs.Consultation.Gating
import Advisor.Proofs.Prompt.Layout

/-!
What a turn knows of the account it has from the look-up that it makes itself, where it makes one.
-/

namespace Advisor

open Dialogue

theorem Attempt.run_lift_ok {w : World σ} {d : Dialogue α} {s t : Scene σ}
    (h : (ExceptT.lift d : Attempt α).run.run w s = (some (.ok a), t)) :
    d.run w s = (some a, t) := by
  rw [ExceptT.run_lift, map_eq_pure_bind] at h
  change (d.bind _).run w s = _ at h
  rw [Dialogue.run_bind] at h
  rcases hd : d.run w s with ⟨_ | b, u⟩
  · rw [hd] at h
    cases h
  · rw [hd] at h
    cases h
    rfl

namespace Consultation

/-- What is known of the account after one scene and in another: the turn's own where it is not wanted, and
otherwise what looking it up comes to between them. -/
structure Learnt (w : World σ) (wanted : Bool) (own : Account.View) (locale : Locale)
    (asking : Scene σ) (view : Account.View) (known : Scene σ) : Prop where
  unwanted : wanted = false → view = own ∧ known = asking
  wanted : wanted = true → (Account.lookup locale).run w asking = (some view, known)

theorem run_accountFor {w : World σ} {asking known : Scene σ}
    (h : (accountFor wanted own locale).run w asking = (some view, known)) :
    Learnt w wanted own locale asking view known := by
  cases wanted with
  | false =>
      cases h
      exact ⟨fun _ => ⟨rfl, rfl⟩, nofun⟩
  | true => exact ⟨nofun, fun _ => h⟩

variable {w : World σ} {p : Practice} {listening : Bool} {turn : Turn} {s : Scene σ}

def checkWith (p : Practice) (listening : Bool) (d : Draft) (plan : Plan) (view : Account.View) :
    Attempt Briefing :=
  check p listening (d.acquainted (Account.concerns plan.intent d.turn.userMessage) view) plan
    { d.turn.context.scopedTo plan with account := view }

theorem run_scope (w : World σ) (p : Practice) (listening : Bool) (d : Draft) (plan : Plan)
    (before : Scene σ) :
    (∃ asking view known, (report listening .context).run.run w before = (some (.ok ()), asking) ∧
        Learnt w (Account.concerns plan.intent d.turn.userMessage) d.turn.context.account d.turn.locale
          asking view known ∧
        (scope p listening d plan).run.run w before =
          (checkWith p listening d plan view).run.run w known) ∨
      ∀ briefing, ((scope p listening d plan).run.run w before).1 ≠ some (.ok briefing) := by
  rw [← Scan.Context.account_scopedTo d.turn.context plan]
  let consult : Attempt Briefing :=
    ExceptT.lift (accountFor (Account.concerns plan.intent d.turn.userMessage)
      (d.turn.context.scopedTo plan).account d.turn.locale) >>= checkWith p listening d plan
  have hscope : scope p listening d plan = report listening .context >>= fun _ => consult := rfl
  rw [hscope]
  rcases Attempt.run_bind_cases w (report listening .context) (fun _ => consult) before with
    ⟨_, asking, hreport, hconsult⟩ | ⟨_, hstops⟩
  · rw [hconsult]
    rcases Attempt.run_bind_cases w (ExceptT.lift (accountFor
        (Account.concerns plan.intent d.turn.userMessage) (d.turn.context.scopedTo plan).account
        d.turn.locale)) (checkWith p listening d plan) asking with
      ⟨view, known, haccount, hcheck⟩ | ⟨_, hstops⟩
    · exact .inl ⟨asking, view, known, hreport, run_accountFor (Attempt.run_lift_ok haccount), hcheck⟩
    · exact .inr hstops
  · exact .inr hstops

/-- A run of a turn gets as far as the account: its plan puts no question back, and the check of its scan,
with all that follows, has just what is known of the account then. -/
structure Acquainted (w : World σ) (p : Practice) (listening : Bool) (turn : Turn) (s : Scene σ)
    (planned : Plan.Planned) (view : Account.View) : Prop where
  answers : planned.plan.question? = none
  learnt : ∃ before asking known,
    (prepare p listening turn).run.run w s = (some (.ok planned), before) ∧
    (report listening .context).run.run w before = (some (.ok ()), asking) ∧
    Learnt w (Account.concerns planned.plan.intent turn.userMessage) turn.context.account turn.locale
      asking view known ∧
    (brief p listening turn).run.run w s =
      (checkWith p listening ((Draft.start turn).planned planned) planned.plan view).run.run w known

theorem brief_acquainted (w : World σ) (p : Practice) (listening : Bool) (turn : Turn)
    (s : Scene σ) :
    (∃ planned view, Acquainted w p listening turn s planned view) ∨
      (∀ planned view, ¬ Acquainted w p listening turn s planned view) ∧
        ∀ briefing, ((brief p listening turn).run.run w s).1 = some (.ok briefing) →
          ∃ response, briefing = .reply response ∧ response.trail.preflight = none := by
  by_cases hacquainted : ∃ planned view, Acquainted w p listening turn s planned view
  · exact .inl hacquainted
  refine .inr ⟨fun planned view h => hacquainted ⟨planned, view, h⟩, fun briefing hbriefing => ?_⟩
  rcases Attempt.run_bind_cases w (prepare p listening turn) (fun planned =>
    followPlan p listening ((Draft.start turn).planned planned) planned.plan) s with
    ⟨planned, before, hprepare, hfollow⟩ | ⟨_, hstops⟩
  · rw [← brief] at hfollow
    cases hquestion : planned.plan.question? with
    | some question =>
        rw [hfollow, followPlan, hquestion] at hbriefing
        cases hbriefing
        exact ⟨_, rfl, rfl⟩
    | none =>
        rw [followPlan, hquestion] at hfollow
        rcases run_scope w p listening ((Draft.start turn).planned planned) planned.plan before with
          ⟨asking, view, known, hreport, hlearnt, hcheck⟩ | hstops
        · exact absurd ⟨planned, view, hquestion, before, asking, known, hprepare, hreport, hlearnt,
            hfollow.trans hcheck⟩ hacquainted
        · rw [hfollow] at hbriefing
          exact absurd hbriefing (hstops briefing)
  · exact absurd hbriefing (hstops briefing)

theorem mem_inquiries_of_mem_calls (h : a ∈ calls acts) : a ∈ inquiries acts := by
  obtain ⟨hmem, hcall⟩ := List.mem_filter.1 h
  refine List.mem_filter.2 ⟨hmem, ?_⟩
  cases a with
  | asked => rfl
  | sent => cases hcall

/-- A question for the plan of a turn, or one of a kind. -/
def PlansOr (p : Practice) (turn : Turn) (kind : Question → Prop) (q : Question) : Prop :=
  q = .completion (p.planner.call turn turn.intent) ∨ kind q

theorem brief_plans (h : Course (brief p listening turn).run acts r) (kind : Question → Prop) :
    ∀ a ∈ calls acts, a.Asks (PlansOr p turn kind) := by
  have hreport (stage : Stream.Stage) :
      (report listening stage).Does fun a => a.isCall → a.Asks (PlansOr p turn kind) := by
    unfold report
    split
    · exact Attempt.does_send fun _ => nofun
    · exact Attempt.does_pure ()
  have hprepare : (prepare p listening turn).Does fun a => a.isCall → a.Asks (PlansOr p turn kind) := by
    refine (hreport .classify).bind fun _ => (hreport .plan).bind fun _ => ?_
    exact Attempt.does_lift (Plan.asks_forTurn ..) fun q arrival hq _ => ⟨q, arrival, rfl, .inl hq⟩
  have hfollow (d : Draft) (plan : Plan) :
      (followPlan p listening d plan).Does fun a => a.isCall → a.Asks (PlansOr p turn kind) := by
    intro acts r hcourse a ha hcall
    have hspared := (spares_composes listening).followPlan (fun _ hq => hq) p d plan acts r hcourse a ha
    rw [hspared] at hcall
    cases hcall
  intro a ha
  obtain ⟨hmem, hcall⟩ := List.mem_filter.1 ha
  exact hprepare.bind (fun _ => hfollow _ _) acts r h a hmem hcall

/-- What shows of the account in a run, by its calls of models and its response. Nothing does if the run
does not get as far; otherwise every prompt for an answer is written with the view that the scan was
checked with. -/
inductive Shown (w : World σ) (p : Practice) (listening : Bool) (turn : Turn) (s : Scene σ)
    (acts : List Act) (r : Option (Except Failure ChatResponse)) : Prop
  | nothing (unacquainted : ∀ planned view, ¬ Acquainted w p listening turn s planned view)
      (asks : ∀ a ∈ calls acts, a.Asks (PlansOr p turn fun _ => False))
      (unchecked : ∀ response, r = some (.ok response) → response.trail.preflight = none)
  | view (found : Prompt.Findings) (acquainted : Acquainted w p listening turn s planned view)
      (asks : ∀ a ∈ calls acts, a.Asks (PlansOr p turn (Answer.IsFor
        (answerCall p turn planned.plan view found) p.timeouts.stream planned.plan.intent
        turn.locale)))
      (written : ∃ text,
        (answerCall p turn planned.plan view found).messages.getLast? = some ⟨.user, text⟩ ∧
          Prompt.Lays (answerBrief turn planned.plan view found) text)
      (checked : ∀ response, r = some (.ok response) →
        response.trail.preflight = some (preflightOf turn planned.plan view))

theorem answerCall_written (p : Practice) (turn : Turn) (plan : Plan) (view : Account.View)
    (found : Prompt.Findings) :
    ∃ text, (answerCall p turn plan view found).messages.getLast? = some ⟨.user, text⟩ ∧
      Prompt.Lays (answerBrief turn plan view found) text :=
  ⟨_, by rw [answerCall, generationCall, Prompt.messages, List.getLast?_concat], Prompt.lays_user _⟩

theorem answerByModel_preflight
    (h : Course (answerByModel p listening d plan call).run acts (some (.ok response))) :
    response.trail.preflight = d.trail.preflight := by
  obtain ⟨first, _, _, _, _, hs⟩ := Attempt.course_bind_ok h
  obtain ⟨c, rfl, _⟩ := settle_calls hs
  rfl

theorem conclude_shown (hacquainted : Acquainted w p listening turn s planned view)
    (hbriefing : ((brief p listening turn).run.run w s).1 = some (.ok briefing))
    (hbefore : ∀ kind, ∀ a ∈ calls before, a.Asks (PlansOr p turn kind))
    (h : Course (conclude p listening briefing).run after r) :
    Shown w p listening turn s (before ++ after) r := by
  obtain ⟨_, asking, known, _, _, _, hcheck⟩ := hacquainted.learnt
  obtain ⟨acts, _, hcourse, _⟩ := run_course w
    (checkWith p listening ((Draft.start turn).planned planned) planned.plan view).run known
  rw [← hcheck, hbriefing] at hcourse
  rcases course_check_ok hcourse with ⟨_, rfl⟩ | ⟨_, found, rfl⟩
  · obtain ⟨rfl, rfl⟩ := course_pure (a := Except.ok _) h
    refine .view default hacquainted ?_ (answerCall_written ..) fun response he => ?_
    · rw [List.append_nil]
      exact hbefore _
    · cases he
      rfl
  · refine .view found hacquainted ?_ (answerCall_written ..) fun response he => ?_
    · intro a ha
      rw [calls_append] at ha
      rcases List.mem_append.1 ha with ha | ha
      · exact hbefore _ a ha
      · rcases conclude_asks h with hnone | ⟨_, _, _, he, hasks⟩
        · have hasked := mem_inquiries_of_mem_calls ha
          rw [hnone] at hasked
          cases hasked
        · cases he
          obtain ⟨q, arrival, rfl, hq⟩ := hasks a (mem_inquiries_of_mem_calls ha)
          exact ⟨q, arrival, rfl, .inr hq⟩
    · subst he
      exact answerByModel_preflight h

theorem answer_shown (w : World σ) (p : Practice) (listening : Bool) (turn : Turn) (s : Scene σ) :
    ∃ acts, ((answer p listening turn).run.run w s).2.acts = s.acts ++ acts ∧
      Shown w p listening turn s acts ((answer p listening turn).run.run w s).1 := by
  obtain ⟨before, hbefore, hbrief, _⟩ := run_course w (brief p listening turn).run s
  have hplans := brief_plans hbrief
  rw [answer]
  rcases Attempt.run_bind_cases w (brief p listening turn) (conclude p listening) s with
    ⟨briefing, t, hrun, hconclude⟩ | ⟨hsame, hstops⟩
  · rw [hconclude]
    rw [hrun] at hbefore
    obtain ⟨after, hafter, hcourse, _⟩ := run_course w (conclude p listening briefing).run t
    refine ⟨before ++ after, by rw [hafter, hbefore, List.append_assoc], ?_⟩
    have hbriefing : ((brief p listening turn).run.run w s).1 = some (.ok briefing) := by rw [hrun]
    rcases brief_acquainted w p listening turn s with ⟨planned, view, hacquainted⟩ | ⟨hnot, hplain⟩
    · exact conclude_shown hacquainted hbriefing hplans hcourse
    · obtain ⟨response, rfl, hunchecked⟩ := hplain briefing hbriefing
      obtain ⟨rfl, hr⟩ := course_pure (a := Except.ok _) hcourse
      rw [hr, List.append_nil]
      refine .nothing hnot (hplans _) fun response' he => ?_
      cases he
      exact hunchecked
  · rw [hsame]
    refine ⟨before, hbefore, ?_⟩
    rcases brief_acquainted w p listening turn s with ⟨planned, view, hacquainted⟩ | ⟨hnot, _⟩
    · exact .view default hacquainted (hplans _) (answerCall_written ..) fun response he => absurd he (hstops response)
    · exact .nothing hnot (hplans _) fun response he => absurd he (hstops response)

theorem stream_shown (w : World σ) (p : Practice) (turn : Turn) (s : Scene σ) :
    ∃ acts told result, ((stream p turn).run.run w s).2.acts = s.acts ++ (acts ++ told) ∧
      Shown w p true turn s acts result ∧
      ∀ a ∈ told, ∃ event heard, result.bind lastEvent? = some event ∧ a = .sent event heard := by
  obtain ⟨acts, hacts, hshown⟩ := answer_shown w p true turn s
  obtain ⟨told, htold, hlast⟩ := stream_acts w p turn s
  refine ⟨acts, told, _, ?_, hshown, hlast⟩
  rw [htold, hacts, List.append_assoc]

end Consultation

end Advisor

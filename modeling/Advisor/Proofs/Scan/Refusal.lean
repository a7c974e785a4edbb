import Advisor.Proofs.Consultation.Stages

namespace Advisor

open Dialogue

/-- A plan that keeps to what its intent demands of it. -/
structure Plan.Guarded (plan : Plan) : Prop where
  smalltalk : plan.intent = .smalltalk → plan.contextLevel = .none
  trading : plan.intent = .tradingAnalysis → plan.contextLevel = .full

theorem Plan.limitedTo_guarded (plan : Plan) (turn : Turn) : (plan.limitedTo turn).Guarded := by
  cases h : plan.intent with
  | smalltalk | tradingAnalysis =>
      constructor <;> intro hi <;> simp_all [Plan.limitedTo, Plan.guarded]
  | productHelp | debugSupport | webResearch | general =>
      constructor <;> intro hi <;> simp_all [Plan.limitedTo, Plan.guarded]

theorem Plan.forTurn_guarded {planner : Planner} {turn : Turn} {intent : Intent} {planned : Planned}
    (h : Course (forTurn planner turn intent) acts (some planned)) : planned.plan.Guarded := by
  rcases course_forTurn h with ⟨_, _, he⟩ | ⟨_, arrival, _, he⟩
  · cases he
    exact limitedTo_guarded _ turn
  · rw [he planned rfl]
    exact limitedTo_guarded _ turn

theorem Scan.Context.rows_scopedTo (c : Scan.Context) (plan : Plan) (hrows : c.rows ≠ []) :
    (c.scopedTo plan).rows = [] ↔ plan.contextLevel ≠ .full ∨
      plan.intent = .smalltalk ∨ plan.intent = .productHelp ∨ plan.intent = .webResearch := by
  cases hlevel : plan.contextLevel with
  | none => simp [scopedTo, scopedByLevel, hlevel]
  | summary => simp [scopedTo, scopedByLevel, hlevel]
  | full =>
      cases hintent : plan.intent <;>
        simp [scopedTo, scopedByLevel, scopedByIntent, hlevel, hintent, hrows, maxRows, generalRows]

theorem Preflight.missingFields_ne_nil (plan : Plan) (context : Scan.Context) :
    missingFields plan context ≠ [] ↔
      (plan.contextLevel = .full ∨ plan.intent = .tradingAnalysis) ∧ context.rows = [] := by
  rw [missingFields]
  by_cases hrows : context.rows = []
  · by_cases hneeds : plan.contextLevel = .full ∨ plan.intent = .tradingAnalysis
    · simp [hrows, hneeds]
    · simp_all
  · simp [hrows]

/-- A turn whose scan has rows is refused for exactly the plans that ask for all of a scan of which
their own intent shows no row. -/
theorem refused_iff_hidden {w : World σ} {limitMs : Nat} {turn : Turn} {intent : Intent}
    {s : Scene σ} {planned : Plan.Planned} (hrows : turn.context.rows ≠ [])
    (hrun : ((Plan.forTurn (.standard limitMs) turn intent).run w s).1 = some planned)
    (wanted : Bool) (view : Account.View) (locale : Locale) :
    (Preflight.check planned.plan { turn.context.scopedTo planned.plan with account := view } wanted
        locale).status = .fail ↔
      planned.plan.contextLevel = .full ∧
        (planned.plan.intent = .productHelp ∨ planned.plan.intent = .webResearch) := by
  obtain ⟨acts, _, hcourse, _⟩ := run_course w (Plan.forTurn (.standard limitMs) turn intent) s
  rw [hrun] at hcourse
  have hguarded := Plan.forTurn_guarded hcourse
  have hscoped := turn.context.rows_scopedTo planned.plan hrows
  rw [Preflight.check_fail_iff, Preflight.missingFields_ne_nil]
  constructor
  · rintro ⟨hneeds, hnone⟩
    have hfull : planned.plan.contextLevel = .full := hneeds.elim id hguarded.trading
    refine ⟨hfull, ?_⟩
    rcases hscoped.1 hnone with hlevel | hsmall | hhidden
    · exact absurd hfull hlevel
    · have := hguarded.smalltalk hsmall
      rw [hfull] at this
      cases this
    · exact hhidden
  · rintro ⟨hfull, hhidden⟩
    exact ⟨.inl hfull, hscoped.2 (.inr (.inr hhidden))⟩

def Turn.onRow (message : String) : Turn :=
  { Turn.plain message with context := { Scan.Context.empty with rows := [default] } }

def fullReply : Reply := ⟨"\x7b\"context_level\": \"full\"\x7d", "model", "", []⟩

def fullHelp : Plan.Planned :=
  ⟨{ Plan.default .productHelp with contextLevel := .full }, none, true⟩

theorem ofReply_fullReply : Plan.ofReply fullReply.answer .productHelp = .ok fullHelp.plan := by
  have hread : (Plan.ofReply fullReply.answer .productHelp).toOption = some fullHelp.plan := by
    decide +kernel
  cases h : Plan.ofReply fullReply.answer .productHelp with
  | error e =>
      rw [h] at hread
      cases hread
  | ok plan =>
      rw [h] at hread
      exact congrArg _ (Option.some.inj hread)

theorem Plan.forTurn_replying (planner : Planner) (reply : Reply) {turn : Turn} {intent : Intent}
    (h : asksModel turn intent) (s : Scene Unit) :
    ((forTurn planner turn intent).run (World.replying (fun _ => reply) []) s).1 =
      some ((Planned.ofAnswer intent (planner.read turn intent reply)).limitedTo turn) := by
  rw [forTurn, if_pos h]
  rfl

theorem forTurn_fullReply (message : String) (s : Scene Unit) :
    ((Plan.forTurn (.standard 0) (.onRow message) .productHelp).run
      (World.replying (fun _ => fullReply) []) s).1 = some fullHelp := by
  have hread : (Plan.Planner.standard 0).read (.onRow message) .productHelp fullReply =
      .ok fullHelp.plan := by
    simp only [Plan.Planner.standard, ofReply_fullReply]
  rw [Plan.forTurn_replying _ _ rfl, hread]
  rfl

theorem refused_iff_hidden_help :
    (Turn.onRow "how do I read this?").context.rows ≠ [] ∧
      ((Plan.forTurn (.standard 0) (.onRow "how do I read this?") .productHelp).run
        (World.replying (fun _ => fullReply) []) ⟨(), .empty, []⟩).1 = some fullHelp ∧
      ((Preflight.check fullHelp.plan
          { (Turn.onRow "how do I read this?").context.scopedTo fullHelp.plan with account := .empty }
          false .en).status = .fail ↔
        fullHelp.plan.contextLevel = .full ∧
          (fullHelp.plan.intent = .productHelp ∨ fullHelp.plan.intent = .webResearch)) := by
  have hrows : (Turn.onRow "how do I read this?").context.rows ≠ [] := by simp [Turn.onRow]
  have hrun := forTurn_fullReply "how do I read this?" ⟨(), .empty, []⟩
  exact ⟨hrows, hrun, refused_iff_hidden hrows hrun false .empty .en⟩

/-- Help on a scan is refused for want of the rows that came with the turn. -/
theorem help_refused_with_rows :
    (Turn.onRow "how do I read this?").context.rows ≠ [] ∧
      ((Plan.forTurn (.standard 0) (.onRow "how do I read this?") .productHelp).run
        (World.replying (fun _ => fullReply) []) ⟨(), .empty, []⟩).1 = some fullHelp ∧
      (Preflight.check fullHelp.plan
        { (Turn.onRow "how do I read this?").context.scopedTo fullHelp.plan with account := .empty }
        false .en).status = .fail :=
  ⟨by simp [Turn.onRow], forTurn_fullReply _ _, rfl⟩

end Advisor

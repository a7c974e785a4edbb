import Advisor.Proofs.Plan.Proposal
import Advisor.Proofs.Scan.Refusal
import Advisor.Proofs.Text.Trimming

/-!
A plan is safe whatever a model said, and it says what the model proposed as far as that was valid.
-/

namespace Advisor.Plan

open Dialogue

/-- What holds of every plan that a turn is given. -/
structure Safe (plan : Plan) (turn : Turn) : Prop extends plan.Guarded where
  distinct : plan.agents.Nodup
  few : plan.agents.length ≤ maxAgents
  short : Text.runeCount plan.clarification ≤ maxClarificationRunes
  wiki : plan.needWiki → turn.enableWiki
  web : plan.needWeb → turn.enableWeb
  plain : plan.intent = .smalltalk →
    plan.responseMode = .short ∧ plan.needWiki = false ∧ plan.needWeb = false
  helped : plan.intent = .tradingAnalysis → plan.agents ≠ []

/-- A reply holds an object, somewhere between other text. -/
def Carries (reply : String) (raw : Json) : Prop :=
  ∃ text, objectText? reply = some text ∧ Json.parse? text = some raw ∧ raw.isObj

/-- Where a plan comes from before it is guarded and limited, and whom that took: from the value that
a model's reply holds, and without one from the default. -/
inductive Origin (limitMs : Nat) (turn : Turn) (classified : Intent) : List Act → Plan → Prop
  | unasked (hasks : asksModel turn classified = false) :
      Origin limitMs turn classified [] (default classified)
  | fallback (hasks : asksModel turn classified) (arrival : Arrival Reply)
      (hnone : ∀ reply raw, (arrival.limited limitMs).result = .ok reply →
        ¬ Carries reply.answer raw) :
      Origin limitMs turn classified [(Planner.standard limitMs).asked turn classified arrival]
        (default classified)
  | proposal (hasks : asksModel turn classified) (arrival : Arrival Reply) (reply : Reply)
      (raw : Json) (proposed : Plan) (hreply : (arrival.limited limitMs).result = .ok reply)
      (hraw : Carries reply.answer raw) (hproposed : Proposes raw classified proposed) :
      Origin limitMs turn classified [(Planner.standard limitMs).asked turn classified arrival]
        proposed

theorem objectText?_blank {reply : String} (h : (Text.trim reply).isEmpty) :
    objectText? reply = none := by
  have hnone : Text.strip Text.isBlank reply.toList = [] := by
    rw [← Text.toList_trim, String.toList_eq_nil_iff]
    exact String.isEmpty_iff.1 h
  unfold objectText? unfenced
  rw [hnone]
  rfl

theorem ofReply_eq_ok {reply : String} {classified : Intent} {plan : Plan} :
    ofReply reply classified = .ok plan ↔
      ∃ raw, Carries reply raw ∧ plan = ofProposal raw classified := by
  constructor
  · intro h
    unfold ofReply at h
    split at h
    · cases h
    split at h
    · cases h
    rename_i text htext
    split at h
    · cases h
    rename_i raw hraw
    split at h
    · rename_i hobj
      exact ⟨raw, ⟨text, htext, hraw, hobj⟩, (Except.ok.inj h).symm⟩
    · cases h
  · rintro ⟨raw, ⟨text, htext, hraw, hobj⟩, rfl⟩
    have hsome : ¬ (Text.trim reply).isEmpty := by
      intro hblank
      rw [objectText?_blank hblank] at htext
      cases htext
    simp only [ofReply, if_neg hsome, htext, hraw, if_pos hobj]

theorem planOf_standard_eq_ok {limitMs : Nat} {turn : Turn} {classified : Intent}
    {arrival : Arrival Reply} {plan : Plan} :
    (Planner.standard limitMs).planOf turn classified arrival = .ok plan ↔
      ∃ reply raw, (arrival.limited limitMs).result = .ok reply ∧ Carries reply.answer raw ∧
        plan = ofProposal raw classified := by
  unfold Planner.planOf Planner.standard
  simp only [inquiryCall]
  cases (arrival.limited limitMs).result with
  | error e => simp [Except.bind]
  | ok reply => simp [Except.bind, ofReply_eq_ok]

theorem forTurn_origin {limitMs : Nat} {turn : Turn} {classified : Intent} {planned : Planned}
    (h : Course (forTurn (.standard limitMs) turn classified) acts (some planned)) :
    ∃ proposed, Origin limitMs turn classified acts proposed ∧
      planned.plan = proposed.limitedTo turn := by
  rcases course_forTurn h with ⟨hasks, rfl, he⟩ | ⟨hasks, arrival, rfl, he⟩
  · cases he
    exact ⟨_, .unasked hasks, rfl⟩
  · rw [he planned rfl]
    cases hplan : (Planner.standard limitMs).planOf turn classified arrival with
    | error e =>
        refine ⟨default classified, .fallback hasks arrival fun reply raw hreply hraw => ?_, rfl⟩
        rw [planOf_standard_eq_ok.2 ⟨reply, raw, hreply, hraw, rfl⟩] at hplan
        cases hplan
    | ok proposed =>
        obtain ⟨reply, raw, hreply, hraw, rfl⟩ := planOf_standard_eq_ok.1 hplan
        exact ⟨_, .proposal hasks arrival reply raw _ hreply hraw (proposes_ofProposal raw _), rfl⟩

/-! What the later steps may not break. -/

/-- A plan whose agents are distinct and whose question is short. -/
structure Tidy (plan : Plan) : Prop where
  distinct : plan.agents.Nodup
  short : Text.runeCount plan.clarification ≤ maxClarificationRunes

theorem tidy_default (intent : Intent) : (default intent).Tidy := by
  cases intent <;> exact ⟨by decide, by decide⟩

theorem Proposes.tidy {raw : Json} {classified : Intent} {plan : Plan}
    (h : Proposes raw classified plan) : plan.Tidy where
  distinct := by
    rcases h.agents with ⟨_, _, items, _, hlists⟩ | ⟨_, hdefault⟩
    · exact hlists.nodup.1
    · rw [hdefault]
      exact (tidy_default plan.intent).distinct
  short := by
    rcases h.clarification with ⟨_, _, s, _, htext⟩ | ⟨_, hdefault⟩
    · rw [htext]
      exact Text.runeCount_truncate_le ..
    · rw [hdefault]
      exact (tidy_default plan.intent).short

theorem Origin.tidy {limitMs : Nat} {turn : Turn} {classified : Intent} {acts : List Act}
    {proposed : Plan} (h : Origin limitMs turn classified acts proposed) : proposed.Tidy := by
  cases h with
  | unasked | fallback => exact tidy_default classified
  | proposal _ _ _ _ _ _ _ hproposed => exact hproposed.tidy

theorem agents_limitedTo (plan : Plan) (turn : Turn) :
    (plan.limitedTo turn).agents = plan.agents ∨
      (plan.limitedTo turn).agents = (default .tradingAnalysis).agents := by
  cases hintent : plan.intent with
  | tradingAnalysis =>
      by_cases hnone : plan.agents.isEmpty
      · exact .inr (by simp [limitedTo, guarded, hintent, hnone])
      · exact .inl (by simp [limitedTo, guarded, hintent, hnone])
  | smalltalk | productHelp | debugSupport | webResearch | general =>
      exact .inl (by simp [limitedTo, guarded, hintent])

theorem clarification_limitedTo (plan : Plan) (turn : Turn) :
    (plan.limitedTo turn).clarification = plan.clarification := by
  cases hintent : plan.intent <;> simp [limitedTo, guarded, hintent]

theorem Tidy.limitedTo {plan : Plan} (h : plan.Tidy) (turn : Turn) :
    (plan.limitedTo turn).Tidy where
  distinct := by
    rcases agents_limitedTo plan turn with hagents | hagents <;> rw [hagents]
    · exact h.distinct
    · exact (tidy_default _).distinct
  short := by
    rw [clarification_limitedTo]
    exact h.short

theorem Tidy.safe {plan : Plan} (h : plan.Tidy) (turn : Turn) : (plan.limitedTo turn).Safe turn where
  toGuarded := limitedTo_guarded plan turn
  distinct := (h.limitedTo turn).distinct
  few := length_le_maxAgents (h.limitedTo turn).distinct
  short := (h.limitedTo turn).short
  wiki := by simp [Plan.limitedTo]
  web := by simp [Plan.limitedTo]
  plain := by
    cases hintent : plan.intent <;> simp [Plan.limitedTo, guarded, hintent]
  helped := by
    cases hintent : plan.intent with
    | tradingAnalysis =>
        by_cases hnone : plan.agents = []
        · simp [Plan.limitedTo, guarded, hintent, hnone, default]
        · simp [Plan.limitedTo, guarded, hintent, hnone]
    | smalltalk | productHelp | debugSupport | webResearch | general =>
        simp [Plan.limitedTo, guarded, hintent]

/-- Planning comes to a plan unless the client has gone. The plan is safe, whatever a model replied. It
is what the value in the reply proposes, or else the default of the message's intent, under the guards
and the switches of the user. -/
theorem forTurn_safe (w : World σ) (limitMs : Nat) (turn : Turn) (classified : Intent)
    (s : Scene σ) :
    (∃ planned s' acts proposed,
      (forTurn (.standard limitMs) turn classified).run w s = (some planned, s') ∧
        s'.acts = s.acts ++ acts ∧ Origin limitMs turn classified acts proposed ∧
        planned.plan = proposed.limitedTo turn ∧ planned.plan.Safe turn) ∨
      ((forTurn (.standard limitMs) turn classified).run w s).1 = none ∧ w.Abandons := by
  obtain ⟨acts, hacts, hcourse, _⟩ := run_course w (forTurn (.standard limitMs) turn classified) s
  cases hrun : (forTurn (.standard limitMs) turn classified).run w s with
  | mk r s' =>
      rw [hrun] at hacts hcourse
      cases r with
      | none => exact .inr ⟨rfl, run_abandoned (by rw [hrun])⟩
      | some planned =>
          obtain ⟨proposed, horigin, hplan⟩ := forTurn_origin hcourse
          refine .inl ⟨planned, s', acts, proposed, rfl, hacts, horigin, hplan, ?_⟩
          rw [hplan]
          exact horigin.tidy.safe turn

end Advisor.Plan

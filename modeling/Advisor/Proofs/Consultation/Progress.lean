import Advisor.Proofs.Consultation.Narration
import Advisor.Proofs.Stream.Pace

/-!
The progress of a streamed turn never falls. Each part of a turn takes the bar from one point up to another,
and parts that follow each other meet where the one ends and the other begins.
-/

namespace Advisor

open Dialogue Advisor.Stream

namespace Stream

/-- A delta tells of a point within the span of generation. -/
def Event.Spans : Event → Prop
  | delta _ pct => generationStart ≤ pct ∧ pct ≤ generationStart + generationSpan
  | progress _ _ | usage _ _ | result _ _ | error _ _ => True

/-- Acts whose events take the bar from one point up to another, none of them back. -/
inductive Climb : ℕ → List Act → ℕ → Prop
  | stay (h : low ≤ high) : Climb low [] high
  | asked (rest : Climb low acts high) : Climb low (.asked q arrival :: acts) high
  | sent {event : Event} {acts : List Act} (heard : Bool) (up : low ≤ event.pct) (spans : event.Spans)
      (rest : Climb event.pct acts high) : Climb low (.sent event heard :: acts) high

theorem Climb.le (h : Climb low acts high) : low ≤ high := by
  induction h with
  | stay h => exact h
  | asked rest ih => exact ih
  | sent heard up spans rest ih => exact up.trans ih

theorem Climb.from_below (h : Climb mid acts high) (hle : low ≤ mid) : Climb low acts high := by
  induction h with
  | stay h => exact .stay (hle.trans h)
  | asked rest ih => exact (ih hle).asked
  | sent heard up spans rest ih => exact .sent heard (hle.trans up) spans rest

theorem Climb.trans (h : Climb low before mid) (h' : Climb mid after high) :
    Climb low (before ++ after) high := by
  induction h with
  | stay h => exact h'.from_below h
  | asked rest ih => exact (ih h').asked
  | sent heard up spans rest ih => exact .sent heard up spans (ih h')

theorem Climb.to_above (h : Climb low acts mid) (hle : mid ≤ high) : Climb low acts high := by
  rw [← List.append_nil acts]
  exact h.trans (.stay hle)

theorem climb_of_asked (h : ∀ a ∈ acts, ∃ q arrival, a = .asked q arrival) (hle : low ≤ high) :
    Climb low acts high := by
  induction acts with
  | nil => exact .stay hle
  | cons a acts ih =>
      obtain ⟨q, arrival, rfl⟩ := h a (List.mem_cons_self ..)
      exact (ih fun b hb => h b (List.mem_cons_of_mem _ hb)).asked

theorem Climb.bounds (h : Climb low acts high) :
    ∀ event ∈ acts.filterMap Act.heard?, (low ≤ event.pct ∧ event.pct ≤ high) ∧ event.Spans := by
  induction h with
  | stay h => simp
  | asked rest ih => exact ih
  | @sent _ _ event acts heard up spans rest ih =>
      intro later hm
      have hcases : later ∈ acts.filterMap Act.heard? ∨ later = event := by
        cases heard with
        | false => exact .inl hm
        | true => exact (List.mem_cons.1 hm).symm
      rcases hcases with hm | rfl
      · obtain ⟨⟨hlow, hhigh⟩, hspans⟩ := ih later hm
        exact ⟨⟨up.trans hlow, hhigh⟩, hspans⟩
      · exact ⟨⟨up, rest.le⟩, spans⟩

theorem Climb.inOrder (h : Climb low acts high) :
    ((acts.filterMap Act.heard?).map Event.pct).Pairwise (· ≤ ·) := by
  induction h with
  | stay h => exact .nil
  | asked rest ih => exact ih
  | sent heard up spans rest ih =>
      cases heard with
      | false => exact ih
      | true =>
          refine .cons ?_ ih
          intro pct hm
          obtain ⟨later, hlater, rfl⟩ := List.mem_map.1 hm
          exact (rest.bounds later hlater).1.1

end Stream

namespace Attempt

/-- However an attempt goes, it takes the bar from one point up to another at most. -/
def Climbs (x : Attempt α) (low high : ℕ) : Prop :=
  ∀ acts r, Course x.run acts r → Climb low acts high

theorem climbs_pure (a : Except Failure α) (h : low ≤ high) :
    Climbs (ExceptT.mk (pure a)) low high := by
  intro acts r hc
  obtain ⟨rfl, _⟩ := course_pure (a := a) hc
  exact .stay h

theorem Climbs.bind {x : Attempt α} {f : α → Attempt β} (hx : x.Climbs low mid)
    (hf : ∀ a, (f a).Climbs mid high) (h : mid ≤ high) : (x >>= f).Climbs low high := by
  intro acts r hc
  rcases course_bind hc with ⟨a, before, after, rfl, hxa, hfa⟩ | ⟨e, _, hxe⟩ | ⟨_, hxn⟩
  · exact (hx _ _ hxa).trans (hf a _ _ hfa)
  · exact (hx _ _ hxe).to_above h
  · exact (hx _ _ hxn).to_above h

theorem climbs_lift {kind : Question → Prop} {d : Dialogue α} (hd : d.Asks kind) (h : low ≤ high) :
    Climbs (ExceptT.lift d) low high := by
  intro acts r hc
  refine climb_of_asked (fun a ha => ?_) h
  obtain ⟨q, arrival, rfl, _⟩ := hd.course_lift hc a ha
  exact ⟨q, arrival, rfl⟩

theorem climbs_await (q : Question) (h : low ≤ high) : (await q).Climbs low high := by
  intro acts r hc
  obtain ⟨arrival, rfl, _⟩ := course_await hc
  exact .asked (.stay h)

theorem climbs_send (event : Event) (up : low ≤ event.pct) (spans : event.Spans) :
    (send event).Climbs low event.pct := by
  intro acts r hc
  rcases course_send hc with ⟨rfl, _⟩ | ⟨rfl, _⟩ | ⟨rfl, _⟩
  · exact .sent true up spans (.stay le_rfl)
  · exact .sent false up spans (.stay le_rfl)
  · exact .stay up

theorem Climbs.within {x : Attempt α} (hx : x.Climbs low high) (limitMs : Nat) :
    (Attempt.within limitMs x).Climbs low high := by
  intro acts r hc
  rcases course_within hc with ⟨result, _, hxr⟩ | ⟨_, hxn⟩
  · exact hx _ _ hxr
  · exact hx _ _ hxn

end Attempt

namespace Stream

variable {pace : ℕ → ℕ} {a : Assembler} {next : Assembler × List Step}

/-- Steps that lead to an answer as long as before at least, and whose deltas tell how long it is. -/
structure Advances (pace : ℕ → ℕ) (a : Assembler) (next : Assembler × List Step) : Prop where
  grows : Text.runeCount a.answer ≤ Text.runeCount next.1.answer
  tells : ∀ text pct, .delta text pct ∈ next.2 → pct = pace (Text.runeCount next.1.answer)

theorem advances_nothing (h : next.2 = []) (hsame : next.1.answer = a.answer) : Advances pace a next where
  grows := by rw [hsame]
  tells := by simp [h]

theorem flush_advances (pace : ℕ → ℕ) (a : Assembler) : Advances pace a (a.flush pace) := by
  unfold Assembler.flush
  split
  · exact advances_nothing rfl rfl
  simp only
  split
  · exact advances_nothing rfl rfl
  split
  · exact ⟨le_rfl, by simp⟩
  · rename_i c _ _ _
    refine ⟨?_, ?_⟩
    · change Text.runeCount a.answer ≤ Text.runeCount (a.answer ++ c.text)
      simp [Text.runeCount]
    · intro text pct hm
      split at hm
      · cases hm
      · cases List.mem_singleton.1 hm
        rfl

theorem finish_advances (pace : ℕ → ℕ) (a : Assembler) : Advances pace a (a.finish pace) := by
  unfold Assembler.finish
  have hflush := flush_advances pace a
  split
  · exact advances_nothing rfl rfl
  simp only
  split
  · exact hflush
  · refine ⟨hflush.grows, fun text pct hm => hflush.tells text pct ?_⟩
    simpa using hm

theorem push_advances (pace : ℕ → ℕ) (a : Assembler) (line : String) :
    Advances pace a (a.push pace line) := by
  unfold Assembler.push
  split
  · exact advances_nothing rfl rfl
  split
  · exact flush_advances pace a
  split
  · exact advances_nothing rfl rfl
  split
  · exact finish_advances pace a
  · exact advances_nothing rfl rfl

theorem deliver_climbs {steps : List Step} (htells : ∀ text pct, .delta text pct ∈ steps → pct = high)
    (hspans : generationStart ≤ high ∧ high ≤ generationStart + generationSpan) (hle : low ≤ high) :
    (deliver steps).Climbs low high := by
  induction steps generalizing low with
  | nil => exact Attempt.climbs_pure (.ok ()) hle
  | cons step steps ih =>
      have hrest : ∀ text pct, .delta text pct ∈ steps → pct = high :=
        fun text pct hm => htells text pct (List.mem_cons_of_mem _ hm)
      cases step with
      | delta text pct =>
          obtain rfl := htells text pct (List.mem_cons_self ..)
          exact (Attempt.climbs_send (.delta text pct) hle hspans).bind (fun _ => ih hrest le_rfl) le_rfl
      | failed message => exact Attempt.climbs_pure (.error _) hle
      | done => exact ih hrest hle

theorem Advances.climbs (hp : Steady pace) (h : Advances pace a next) :
    (deliver next.2).Climbs (pace (Text.runeCount a.answer)) (pace (Text.runeCount next.1.answer)) :=
  deliver_climbs h.tells ⟨hp.starts _, hp.ends _⟩ (hp.mono h.grows)

theorem Steady.le_usage (hp : Steady pace) (runes : ℕ) : pace runes ≤ usagePct :=
  (hp.ends runes).trans (by decide)

theorem conclude_climbs (a : Assembler) (h : low ≤ usagePct) : (conclude a).Climbs low usagePct := by
  unfold conclude
  cases a.usage with
  | none => exact Attempt.climbs_pure (.ok a.reply) h
  | some usage =>
      refine (Attempt.climbs_send (.usage usage usagePct) h trivial).bind (fun _ => ?_) le_rfl
      exact Attempt.climbs_pure (.ok a.reply) le_rfl

theorem relay_climbs (hp : Steady pace) (a : Assembler) (signals : List Signal) :
    (relay pace a signals).Climbs (pace (Text.runeCount a.answer)) usagePct := by
  induction signals generalizing a with
  | nil =>
      unfold relay
      split
      · exact conclude_climbs a (hp.le_usage _)
      · exact ((finish_advances pace a).climbs hp).bind (fun _ => conclude_climbs _ (hp.le_usage _))
          (hp.le_usage _)
  | cons signal signals ih =>
      unfold relay
      split
      · exact conclude_climbs a (hp.le_usage _)
      · cases signal with
        | line text =>
            exact ((push_advances pace a text).climbs hp).bind (fun _ => ih _) (hp.le_usage _)
        | fault why => exact Attempt.climbs_pure (.error why) (hp.le_usage _)
        | pause lapse =>
            have hpause : (Dialogue.pause lapse).Asks fun _ => False := asks_pause lapse
            exact (Attempt.climbs_lift hpause le_rfl).bind (fun _ => ih a) (hp.le_usage _)

end Stream

namespace Consultation

theorem report_climbs (stage : Stage) (h : low ≤ stage.pct) :
    (report true stage).Climbs low stage.pct :=
  Attempt.climbs_send stage.event h trivial

theorem prepare_climbs (p : Practice) (turn : Turn) :
    (prepare p true turn).Climbs (Stage.pct .classify) (Stage.pct .plan) := by
  refine (report_climbs .classify le_rfl).bind (fun _ => ?_) (by decide)
  refine (report_climbs .plan (by decide)).bind (fun _ => ?_) le_rfl
  exact Attempt.climbs_lift (Plan.asks_forTurn ..) le_rfl

theorem inform_climbs (p : Practice) (d : Draft) (plan : Plan) (context : Scan.Context)
    (preflight : Preflight) :
    (inform p true d plan context preflight).Climbs (Stage.pct .preflight) (Stage.pct .generation) := by
  refine (report_climbs .retrieval (by decide)).bind (fun _ => ?_) (by decide)
  refine (Attempt.climbs_lift (Knowledge.asks_findings ..) le_rfl).bind (fun _ => ?_) (by decide)
  exact (report_climbs .generation (by decide)).bind (fun _ => Attempt.climbs_pure (.ok _) le_rfl) le_rfl

theorem check_climbs (p : Practice) (d : Draft) (plan : Plan) (context : Scan.Context) :
    (check p true d plan context).Climbs (Stage.pct .context) (Stage.pct .generation) := by
  refine (report_climbs .preflight (by decide)).bind (fun _ => ?_) (by decide)
  simp only
  split
  · exact Attempt.climbs_pure (.ok _) (by decide)
  · exact inform_climbs p _ plan context _

theorem followPlan_climbs (p : Practice) (d : Draft) (plan : Plan) :
    (followPlan p true d plan).Climbs (Stage.pct .plan) (Stage.pct .generation) := by
  unfold followPlan
  split
  · exact Attempt.climbs_pure (.ok _) (by decide)
  refine (report_climbs .context (by decide)).bind (fun _ => ?_) (by decide)
  exact (Attempt.climbs_lift (asks_accountFor ..) le_rfl).bind (fun _ => check_climbs p _ plan _) (by decide)

theorem generate_climbs (p : Practice) (call : Call) :
    (generate p true call).Climbs generationStart usagePct := by
  have hp := paceOf_steady call.maxTokens
  refine Attempt.Climbs.within ?_ p.timeouts.stream
  refine (Attempt.climbs_await _ (hp.starts (Text.runeCount ""))).bind (fun signals => ?_) (hp.le_usage _)
  exact relay_climbs hp (.start call.model) signals

theorem settle_climbs (p : Practice) (d : Draft) (plan : Plan) (call : Call) (first : Reply) :
    (settle p true d plan call first).Climbs usagePct retryPct := by
  have hchecked (low : ℕ) (h : low ≤ retryPct) :=
    (Attempt.climbs_lift (Answer.asks_checked p.rules call 0 first plan.intent d.turn.locale) h).bind
      (fun c => Attempt.climbs_pure (.ok ((d.checked c).respond plan.intent c.reply)) le_rfl) le_rfl
  unfold settle
  split
  · exact (report_climbs .retry (by decide)).bind (fun _ => hchecked _ le_rfl) le_rfl
  · exact hchecked _ (by decide)

theorem answer_climbs (p : Practice) (turn : Turn) :
    (answer p true turn).Climbs (Stage.pct .classify) retryPct := by
  have hbrief : (brief p true turn).Climbs (Stage.pct .classify) generationStart :=
    (prepare_climbs p turn).bind (fun _ => followPlan_climbs p _ _) (by decide)
  refine hbrief.bind (fun briefing => ?_) (by decide)
  cases briefing with
  | reply response => exact Attempt.climbs_pure (.ok response) (by decide)
  | call d plan call =>
      exact (generate_climbs p call).bind (fun first => settle_climbs p d.called plan call first) (by decide)

theorem lastEvent?_pct (h : lastEvent? result = some event) : event.pct = donePct ∧ event.Spans := by
  cases result with
  | ok response =>
      cases h
      exact ⟨rfl, trivial⟩
  | error e =>
      have hkept : e ≠ .cancelled := by
        rintro rfl
        cases h
      rw [lastEvent?_error hkept] at h
      cases h
      exact ⟨rfl, trivial⟩

theorem stream_climbs (p : Practice) (turn : Turn) :
    (stream p turn).Climbs (Stage.pct .classify) donePct := by
  intro acts r hc
  rcases course_stream hc with ⟨result, before, after, rfl, ha, hend⟩ | ⟨_, ha⟩
  · have hbefore := answer_climbs p turn _ _ ha
    rcases hend with ⟨_, rfl, _⟩ | ⟨event, hevent, hs⟩
    · exact hbefore.trans (.stay (by decide))
    · obtain ⟨hpct, hspans⟩ := lastEvent?_pct hevent
      have hlast : (Attempt.send event).Climbs retryPct event.pct :=
        Attempt.climbs_send event (hpct ▸ by decide) hspans
      rw [← hpct]
      exact hbefore.trans (hlast _ _ hs)
  · exact (answer_climbs p turn _ _ ha).to_above (by decide)

/-- The progress that a client of a streamed turn hears of never falls, from the first stage to the end, and
its deltas keep to the span of generation. How far generation is never falls as the answer grows, and never
rises as more tokens are allowed, and a byte is enough to tell it. -/
theorem progress_never_falls (w : World σ) (p : Practice) (turn : Turn) (s : Scene σ) :
    (∃ acts, ((stream p turn).run.run w s).2.acts = s.acts ++ acts ∧
      ((acts.filterMap Act.heard?).map Event.pct).Pairwise (· ≤ ·) ∧
      (∀ event ∈ acts.filterMap Act.heard?, 5 ≤ event.pct ∧ event.pct ≤ 100) ∧
      (∀ text pct, .delta text pct ∈ acts.filterMap Act.heard? → 45 ≤ pct ∧ pct ≤ 90)) ∧
    (∀ maxTokens, Monotone (paceOf maxTokens)) ∧
    (∀ runes, Antitone fun maxTokens => paceOf maxTokens runes) ∧
    ∀ maxTokens runes, Gauge.double.share runes maxTokens ≤ 45 ∧
      ((45 : UInt8) + .ofNat (Gauge.double.share runes maxTokens)).toNat = paceOf maxTokens runes := by
  obtain ⟨acts, hacts, hcourse, _⟩ := run_course w (stream p turn).run s
  have hclimb := stream_climbs p turn _ _ hcourse
  refine ⟨⟨acts, hacts, hclimb.inOrder, fun event hm => (hclimb.bounds event hm).1,
    fun text pct hm => (hclimb.bounds _ hm).2⟩, fun maxTokens => (paceOf_steady maxTokens).mono,
    paceOf_antitone, fun maxTokens runes => ⟨share_le runes maxTokens, toNat_progress runes maxTokens⟩⟩

end Consultation

end Advisor

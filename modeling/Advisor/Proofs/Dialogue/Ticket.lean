import Advisor.Proofs.Dialogue.Alike

/-!
What a request brings that says nothing of what it asks for: the key that models are called with, and the
name it goes by. Two dialogues that differ in nothing else run alike in worlds that look at neither.
-/

namespace Advisor

open Dialogue

structure Ticket where
  apiKey : String
  requestId : String

def Call.under (ticket : Ticket) (call : Call) : Call := { call with apiKey := ticket.apiKey }

def Turn.under (ticket : Ticket) (turn : Turn) : Turn :=
  { turn with apiKey := ticket.apiKey, requestId := ticket.requestId }

def Trail.under (ticket : Ticket) (trail : Trail) : Trail :=
  { trail with requestId := ticket.requestId }

def ChatResponse.under (ticket : Ticket) (response : ChatResponse) : ChatResponse :=
  { response with trail := response.trail.under ticket }

/-- Only the response at the end of a stream tells the name of its request. -/
def Stream.Event.under (ticket : Ticket) : Event → Event
  | .progress stage pct => .progress stage pct
  | .delta text pct => .delta text pct
  | .usage u pct => .usage u pct
  | .result response pct => .result (response.under ticket) pct
  | .error text pct => .error text pct

/-- The same act under a ticket: any model is called with its key, any response tells its name. -/
def Act.under (ticket : Ticket) : Act → Act
  | .asked (.completion call) arrival => .asked (.completion (call.under ticket)) arrival
  | .asked (.stream call) arrival => .asked (.stream (call.under ticket)) arrival
  | .asked q arrival => .asked q arrival
  | .sent event heard => .sent (event.under ticket) heard

def Question.call? : Question → Option Call
  | completion call | stream call => some call
  | _ => none

/-- Any model that is called in an act is called with a key. -/
def Act.Carries (key : String) (a : Act) : Prop :=
  ∀ call, a.question?.bind Question.call? = some call → call.apiKey = key

namespace Act

theorem under_of_topic {q : Question} (hq : q.topic ≠ .model) (ticket : Ticket)
    (arrival : Arrival q.Answer) : (asked q arrival).under ticket = asked q arrival := by
  cases q with
  | completion call | stream call => exact absurd rfl hq
  | _ => rfl

theorem carries_of_topic {q : Question} (hq : q.topic ≠ .model) (key : String)
    (arrival : Arrival q.Answer) : (asked q arrival).Carries key := by
  intro call hcall
  cases q with
  | completion call | stream call => exact absurd rfl hq
  | _ => cases hcall

theorem carries_completion {call : Call} (hkey : call.apiKey = key) (arrival : Arrival Reply) :
    (asked (.completion call) arrival).Carries key := by
  rintro _ ⟨⟩
  exact hkey

theorem carries_stream {call : Call} (hkey : call.apiKey = key)
    (arrival : Arrival (List Stream.Signal)) : (asked (.stream call) arrival).Carries key := by
  rintro _ ⟨⟩
  exact hkey

theorem carries_sent (key : String) (event : Stream.Event) (heard : Bool) :
    (sent event heard).Carries key := by
  rintro _ ⟨⟩

theorem carries_under (ticket : Ticket) (a : Act) : (a.under ticket).Carries ticket.apiKey := by
  cases a with
  | sent event heard => exact carries_sent _ _ heard
  | asked q arrival =>
      cases q with
      | completion call => exact carries_completion rfl arrival
      | stream call => exact carries_stream rfl arrival
      | _ => exact carries_of_topic (fun h => by cases h) _ arrival

theorem heard?_under (ticket : Ticket) (a : Act) :
    (a.under ticket).heard? = a.heard?.map (·.under ticket) := by
  cases a with
  | sent event heard => cases heard <;> rfl
  | asked q arrival => cases q <;> rfl

end Act

namespace Dialogue

/-- The second dialogue does under a ticket what the first does under a key. What they come to is related
by `Q`. -/
inductive Reissued (key : String) (ticket : Ticket) (Q : α → β → Prop) :
    Dialogue α → Dialogue β → Prop
  | done (hab : Q a b) : Reissued key ticket Q (.done a) (.done b)
  | completion {call : Call} {next : Arrival Reply → Dialogue α} {next' : Arrival Reply → Dialogue β}
      (hkey : call.apiKey = key) (hn : ∀ arrival, Reissued key ticket Q (next arrival) (next' arrival)) :
      Reissued key ticket Q (.ask (.completion call) next)
        (.ask (.completion (call.under ticket)) next')
  | stream {call : Call} {next : Arrival (List Stream.Signal) → Dialogue α}
      {next' : Arrival (List Stream.Signal) → Dialogue β}
      (hkey : call.apiKey = key) (hn : ∀ arrival, Reissued key ticket Q (next arrival) (next' arrival)) :
      Reissued key ticket Q (.ask (.stream call) next) (.ask (.stream (call.under ticket)) next')
  | ask {q : Question} {next : Arrival q.Answer → Dialogue α} {next' : Arrival q.Answer → Dialogue β}
      (hq : q.topic ≠ .model) (hn : ∀ arrival, Reissued key ticket Q (next arrival) (next' arrival)) :
      Reissued key ticket Q (.ask q next) (.ask q next')
  | wait (hn : Reissued key ticket Q next next') :
      Reissued key ticket Q (.wait lapse next) (.wait lapse next')
  | send {next : Bool → Dialogue α} {next' : Bool → Dialogue β}
      (hn : ∀ heard, Reissued key ticket Q (next heard) (next' heard)) :
      Reissued key ticket Q (.send event next) (.send (event.under ticket) next')
  | read {slot : Slot} {next : Option slot.Value → Dialogue α}
      {next' : Option slot.Value → Dialogue β} (hn : ∀ v, Reissued key ticket Q (next v) (next' v)) :
      Reissued key ticket Q (.read slot next) (.read slot next')
  | store (hn : Reissued key ticket Q next next') :
      Reissued key ticket Q (.store slot value next) (.store slot value next')
  | now {next : Timestamp → Dialogue α} {next' : Timestamp → Dialogue β}
      (hn : ∀ t, Reissued key ticket Q (next t) (next' t)) :
      Reissued key ticket Q (.now next) (.now next')

variable {key : String} {ticket : Ticket}

theorem Reissued.bind {P : α → β → Prop} {Q : γ → δ → Prop} {d : Dialogue α} {d' : Dialogue β}
    {k : α → Dialogue γ} {k' : β → Dialogue δ} (hd : Reissued key ticket P d d')
    (hk : ∀ a b, P a b → Reissued key ticket Q (k a) (k' b)) :
    Reissued key ticket Q (d >>= k) (d' >>= k') := by
  change Reissued key ticket Q (d.bind k) (d'.bind k')
  induction hd with
  | done hab => exact hk _ _ hab
  | completion hkey hn ih => exact .completion hkey ih
  | stream hkey hn ih => exact .stream hkey ih
  | ask hq hn ih => exact .ask hq ih
  | wait hn ih => exact .wait ih
  | send hn ih => exact .send ih
  | read hn ih => exact .read ih
  | store hn ih => exact .store ih
  | now hn ih => exact .now ih

theorem Asks.reissued {kind : Question → Prop} {d : Dialogue α} (hd : d.Asks kind)
    (hk : ∀ q, kind q → q.topic ≠ .model) : Reissued key ticket Eq d d := by
  induction hd with
  | done a => exact .done rfl
  | ask hq hn ih => exact .ask (hk _ hq) ih
  | wait hn ih => exact .wait ih
  | read hn ih => exact .read ih
  | store hn ih => exact .store ih
  | now hn ih => exact .now ih

theorem Reissued.within {Q : α → β → Prop} {d : Dialogue α} {d' : Dialogue β}
    (h : Reissued key ticket Q d d') (left : Nat) :
    Reissued key ticket (Option.Rel Q) (within left d) (within left d') := by
  induction h generalizing left with
  | done hab => exact .done (.some hab)
  | completion hkey hn ih => exact .completion hkey fun arrival => ih arrival left
  | stream hkey hn ih => exact .stream hkey fun arrival => ih arrival left
  | ask hq hn ih => exact .ask hq fun arrival => ih arrival left
  | @wait next next' lapse hn ih =>
      unfold Dialogue.within
      split
      · exact .wait (ih _)
      · exact .wait (.done .none)
  | send hn ih => exact .send fun heard => ih heard left
  | read hn ih => exact .read fun v => ih v left
  | store hn ih => exact .store (ih left)
  | now hn ih => exact .now fun t => ih t left

end Dialogue

/-- Results that are failures for the same reason, or successes that are related. -/
inductive SameOutcome (Q : α → β → Prop) : Except Failure α → Except Failure β → Prop
  | ok (hab : Q a b) : SameOutcome Q (.ok a) (.ok b)
  | error (e : Failure) : SameOutcome Q (.error e) (.error e)

theorem sameOutcome_refl (result : Except Failure α) : SameOutcome Eq result result := by
  cases result with
  | ok a => exact .ok rfl
  | error e => exact .error e

namespace Attempt

def Reissued (key : String) (ticket : Ticket) (Q : α → β → Prop) (x : Attempt α) (x' : Attempt β) :
    Prop :=
  Dialogue.Reissued key ticket (SameOutcome Q) x.run x'.run

variable {key : String} {ticket : Ticket}

theorem reissued_pure {Q : α → β → Prop} (hab : Q a b) :
    Reissued key ticket Q (pure a) (pure b) :=
  Dialogue.Reissued.done (.ok hab)

theorem Reissued.bind {P : α → β → Prop} {Q : γ → δ → Prop} {x : Attempt α} {x' : Attempt β}
    {k : α → Attempt γ} {k' : β → Attempt δ} (hx : Reissued key ticket P x x')
    (hk : ∀ a b, P a b → Reissued key ticket Q (k a) (k' b)) :
    Reissued key ticket Q (x >>= k) (x' >>= k') := by
  unfold Reissued
  rw [ExceptT.run_bind, ExceptT.run_bind]
  refine Dialogue.Reissued.bind hx fun result result' h => ?_
  cases h with
  | ok hab => exact hk _ _ hab
  | error e => exact .done (.error e)

theorem reissued_lift {Q : α → β → Prop} {d : Dialogue α} {d' : Dialogue β}
    (h : Dialogue.Reissued key ticket Q d d') :
    Reissued key ticket Q (ExceptT.lift d) (ExceptT.lift d') := by
  unfold Reissued
  rw [ExceptT.run_lift, ExceptT.run_lift, map_eq_pure_bind, map_eq_pure_bind]
  exact h.bind fun a b hab => .done (.ok hab)

theorem reissued_send (event : Stream.Event) :
    Reissued key ticket Eq (send event) (send (event.under ticket)) := by
  refine .send fun heard => ?_
  cases heard with
  | true => exact .done (.ok rfl)
  | false => exact .done (.error _)

theorem reissued_pause (lapse : Lapse) : Reissued key ticket Eq (pause lapse) (pause lapse) :=
  .wait (.done (.ok rfl))

theorem Reissued.within {Q : α → β → Prop} {x : Attempt α} {x' : Attempt β}
    (h : Reissued key ticket Q x x') (limitMs : Nat) :
    Reissued key ticket Q (within limitMs x) (within limitMs x') := by
  refine (Dialogue.Reissued.within h limitMs).bind fun result result' h => ?_
  cases h with
  | some hab => exact .done hab
  | none => exact .done (.error _)

theorem reissued_completion {call : Call} (hkey : call.apiKey = key) :
    Reissued key ticket Eq (await (.completion call)) (await (.completion (call.under ticket))) :=
  .completion hkey fun _ => .wait (.done (sameOutcome_refl _))

theorem reissued_stream {call : Call} (hkey : call.apiKey = key) :
    Reissued key ticket Eq (await (.stream call)) (await (.stream (call.under ticket))) :=
  .stream hkey fun _ => .wait (.done (sameOutcome_refl _))

end Attempt

/-- Two worlds that do the same in related states, under whatever ticket the second is addressed. -/
structure Indifferent (ticket : Ticket) (w : World σ) (w' : World τ) (R : σ → τ → Prop) : Prop where
  completes : ∀ {s t} (call : Call), R s t →
    (w.answer (.completion call) s).1 = (w'.answer (.completion (call.under ticket)) t).1 ∧
      R (w.answer (.completion call) s).2 (w'.answer (.completion (call.under ticket)) t).2
  streams : ∀ {s t} (call : Call), R s t →
    (w.answer (.stream call) s).1 = (w'.answer (.stream (call.under ticket)) t).1 ∧
      R (w.answer (.stream call) s).2 (w'.answer (.stream (call.under ticket)) t).2
  answers : ∀ {s t} (q : Question), q.topic ≠ .model → R s t →
    (w.answer q s).1 = (w'.answer q t).1 ∧ R (w.answer q s).2 (w'.answer q t).2
  waits : ∀ {s t} (lapse : Lapse), R s t → Option.Rel R (w.pass lapse s) (w'.pass lapse t)
  hears : ∀ {s t} (event : Stream.Event), R s t →
    HeardAlike R (w.hear event s) (w'.hear (event.under ticket) t)
  today : ∀ {s t}, R s t → w.today s = w'.today t
  instant : ∀ {s t}, R s t → w.instant s = w'.instant t

/-- Two runs, after acts that came before, that have come to related results by the same acts: the first
under a key, the second under a ticket. -/
structure RanAlike (key : String) (ticket : Ticket) (Q : α → β → Prop) (R : σ → τ → Prop)
    (before before' : List Act) (x : Option α × Scene σ) (x' : Option β × Scene τ) : Prop where
  result : Option.Rel Q x.1 x'.1
  abreast : Abreast True R x.2 x'.2
  acts : ∃ acts, x.2.acts = before ++ acts ∧ x'.2.acts = before' ++ acts.map (Act.under ticket) ∧
    ∀ a ∈ acts, a.Carries key

variable {key : String} {ticket : Ticket} {R : σ → τ → Prop}

def Scene.after (s : Scene σ) (a : Act) (outside : σ) : Scene σ := { s.act a with outside }

theorem RanAlike.of_after {Q : α → β → Prop} {d : Dialogue α} {d' : Dialogue β} {w : World σ}
    {w' : World τ} {s : Scene σ} {t : Scene τ} {a a' : Act}
    (h : RanAlike key ticket Q R (s.after a outside).acts (t.after a' outside').acts
      (d.run w (s.after a outside)) (d'.run w' (t.after a' outside')))
    (ha' : a' = a.under ticket) (ha : a.Carries key) :
    RanAlike key ticket Q R s.acts t.acts (d.run w (s.after a outside))
      (d'.run w' (t.after a' outside')) := by
  obtain ⟨acts, hacts, hacts', hcarries⟩ := h.acts
  refine ⟨h.result, h.abreast, a :: acts, ?_, ?_, ?_⟩
  · simpa [Scene.after, Scene.act] using hacts
  · simpa [Scene.after, Scene.act, ← ha'] using hacts'
  · rintro b (_ | ⟨_, hb⟩)
    · exact ha
    · exact hcarries b hb

theorem answered_alike {x : α × σ} {y : α × τ} (h : x.1 = y.1 ∧ R x.2 y.2) :
    ∃ a outside outside', x = (a, outside) ∧ y = (a, outside') ∧ R outside outside' := by
  obtain ⟨a, outside⟩ := x
  obtain ⟨a', outside'⟩ := y
  obtain ⟨rfl, hR⟩ := h
  exact ⟨_, _, _, rfl, rfl, hR⟩

theorem Dialogue.run_ask {w : World σ} {q : Question} {next : Arrival q.Answer → Dialogue α}
    {s : Scene σ} {arrival : Arrival q.Answer} (h : w.answer q s.outside = (arrival, outside)) :
    (ask q next).run w s = (next arrival).run w (s.after (.asked q arrival) outside) := by
  simp only [Dialogue.run, h]
  rfl

theorem Dialogue.Reissued.run {Q : α → β → Prop} {d : Dialogue α} {d' : Dialogue β} {w : World σ}
    {w' : World τ} (h : Reissued key ticket Q d d') (hw : Indifferent ticket w w' R) {s : Scene σ}
    {t : Scene τ} (hs : Abreast True R s t) :
    RanAlike key ticket Q R s.acts t.acts (d.run w s) (d'.run w' t) := by
  induction h generalizing s t with
  | done hab => exact ⟨.some hab, hs, [], by simp [Dialogue.run], by simp [Dialogue.run], by simp⟩
  | @completion call next next' hkey hn ih =>
      obtain ⟨arrival, _, _, hx, hy, hR⟩ := answered_alike (hw.completes call hs.outside)
      rw [Dialogue.run_ask hx, Dialogue.run_ask hy]
      refine .of_after ?_ rfl (Act.carries_completion hkey _)
      exact ih arrival ⟨hR, hs.memory⟩
  | @stream call next next' hkey hn ih =>
      obtain ⟨arrival, _, _, hx, hy, hR⟩ := answered_alike (hw.streams call hs.outside)
      rw [Dialogue.run_ask hx, Dialogue.run_ask hy]
      refine .of_after ?_ rfl (Act.carries_stream hkey _)
      exact ih arrival ⟨hR, hs.memory⟩
  | @ask q next next' hq hn ih =>
      obtain ⟨arrival, _, _, hx, hy, hR⟩ := answered_alike (hw.answers q hq hs.outside)
      rw [Dialogue.run_ask hx, Dialogue.run_ask hy]
      refine .of_after ?_ (Act.under_of_topic hq ticket _).symm (Act.carries_of_topic hq key _)
      exact ih arrival ⟨hR, hs.memory⟩
  | @wait next next' lapse hn ih =>
      have hwaits := hw.waits lapse hs.outside
      simp only [Dialogue.run]
      generalize w.pass lapse s.outside = x at hwaits
      generalize w'.pass lapse t.outside = y at hwaits
      cases hwaits with
      | none => exact ⟨.none, hs, [], by simp, by simp, by simp⟩
      | @some outside outside' hR =>
          exact ih (s := { s with outside }) (t := { t with outside := outside' }) ⟨hR, hs.memory⟩
  | @send event next next' hn ih =>
      rcases run_send_alike next next' (hw.hears event hs.outside) with
        ⟨hrun, hrun'⟩ | ⟨heard, outside, outside', hR, hrun, hrun'⟩
      · rw [hrun, hrun']
        exact ⟨.none, hs, [], by simp, by simp, by simp⟩
      · rw [hrun, hrun']
        refine .of_after ?_ rfl (Act.carries_sent _ _ heard)
        exact ih heard ⟨hR, hs.memory⟩
  | @read slot next next' hn ih =>
      simp only [Dialogue.run]
      rw [← hs.memory trivial, ← hw.instant hs.outside]
      exact ih _ hs
  | @store next next' slot value hn ih =>
      have hmemory := hs.memory trivial
      have hinstant := hw.instant hs.outside
      exact ih (s := { s with memory := s.memory.store (w.instant s.outside) slot value })
        (t := { t with memory := t.memory.store (w'.instant t.outside) slot value })
        ⟨hs.outside, fun _ => by simp only [hmemory, hinstant]⟩
  | @now next next' hn ih =>
      simp only [Dialogue.run]
      rw [← hw.today hs.outside]
      exact ih _ hs

end Advisor

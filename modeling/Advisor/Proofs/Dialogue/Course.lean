import Advisor.Dialogue.Run

namespace Advisor

namespace Dialogue

/-- A way in which a dialogue may go, whoever answers it: what it does, and what it comes to. It
comes to nothing when it is abandoned. -/
inductive Course : Dialogue α → List Act → Option α → Prop
  | done (a : α) : Course (.done a) [] (some a)
  | ask {q : Question} {next : Arrival q.Answer → Dialogue α} (arrival : Arrival q.Answer)
      (rest : Course (next arrival) acts r) : Course (.ask q next) (.asked q arrival :: acts) r
  | wait (rest : Course next acts r) : Course (.wait lapse next) acts r
  | leftWaiting : Course (.wait lapse next) [] none
  | send (heard : Bool) (rest : Course (next heard) acts r) :
      Course (.send event next) (.sent event heard :: acts) r
  | leftSending : Course (.send event next) [] none
  | read {slot : Slot} {next : Option slot.Value → Dialogue α} (v : Option slot.Value)
      (rest : Course (next v) acts r) : Course (.read slot next) acts r
  | store (rest : Course next acts r) : Course (.store slot value next) acts r
  | now (t : Timestamp) (rest : Course (next t) acts r) : Course (.now next) acts r

end Dialogue

open Dialogue

/-- What may be seen of a world: the answers it has, and whether its client hears. -/
def World.Shows (w : World σ) : Act → Prop
  | .asked q arrival => ∃ s, (w.answer q s).1 = arrival
  | .sent event heard => ∃ s s', w.hear event s = some (heard, s')

/-- Whatever a run adds to the acts is a course of the dialogue, and the world shows in it. -/
theorem run_course (w : World σ) (d : Dialogue α) (s : Scene σ) :
    ∃ acts, (d.run w s).2.acts = s.acts ++ acts ∧ Course d acts (d.run w s).1 ∧
      ∀ a ∈ acts, w.Shows a := by
  induction d generalizing s with
  | done a => exact ⟨[], by simp [run], .done a, by simp⟩
  | ask q next ih =>
      obtain ⟨acts, hacts, hcourse, hshows⟩ := ih (w.answer q s.outside).1
        { s.act (.asked q (w.answer q s.outside).1) with outside := (w.answer q s.outside).2 }
      refine ⟨_ :: acts, ?_, .ask _ hcourse, ?_⟩
      · simpa [run, Scene.act] using hacts
      · rintro a (_ | ⟨_, ha⟩)
        · exact ⟨s.outside, rfl⟩
        · exact hshows a ha
  | wait lapse next ih =>
      cases hp : w.pass lapse s.outside with
      | none => exact ⟨[], by simp [run, hp], by simpa [run, hp] using .leftWaiting, by simp⟩
      | some outside =>
          obtain ⟨acts, hacts, hcourse, hshows⟩ := ih { s with outside }
          refine ⟨acts, ?_, ?_, hshows⟩
          · simpa [run, hp] using hacts
          · simpa [run, hp] using hcourse.wait
  | send event next ih =>
      cases hh : w.hear event s.outside with
      | none => exact ⟨[], by simp [run, hh], by simpa [run, hh] using .leftSending, by simp⟩
      | some answer =>
          obtain ⟨heard, outside⟩ := answer
          obtain ⟨acts, hacts, hcourse, hshows⟩ :=
            ih heard { s.act (.sent event heard) with outside }
          refine ⟨_ :: acts, ?_, by simpa [run, hh] using hcourse.send heard, ?_⟩
          · simpa [run, hh, Scene.act] using hacts
          · rintro a (_ | ⟨_, ha⟩)
            · exact ⟨s.outside, outside, hh⟩
            · exact hshows a ha
  | read slot next ih =>
      obtain ⟨acts, hacts, hcourse, hshows⟩ := ih (s.memory.get? (w.instant s.outside) slot) s
      exact ⟨acts, hacts, .read _ hcourse, hshows⟩
  | store slot value next ih =>
      obtain ⟨acts, hacts, hcourse, hshows⟩ :=
        ih { s with memory := s.memory.store (w.instant s.outside) slot value }
      exact ⟨acts, hacts, .store hcourse, hshows⟩
  | now next ih =>
      obtain ⟨acts, hacts, hcourse, hshows⟩ := ih (w.today s.outside) s
      exact ⟨acts, hacts, .now _ hcourse, hshows⟩

/-- The world may give a dialogue up before it is done. -/
def World.Abandons (w : World σ) : Prop :=
  (∃ lapse s, w.pass lapse s = none) ∨ ∃ event s, w.hear event s = none

theorem run_abandoned {w : World σ} {d : Dialogue α} {s : Scene σ} (h : (d.run w s).1 = none) :
    w.Abandons := by
  induction d generalizing s with
  | done a => cases h
  | wait lapse next ih =>
      cases hp : w.pass lapse s.outside with
      | none => exact .inl ⟨lapse, s.outside, hp⟩
      | some outside =>
          simp only [run, hp] at h
          exact ih h
  | send event next ih =>
      cases hh : w.hear event s.outside with
      | none => exact .inr ⟨event, s.outside, hh⟩
      | some answer =>
          simp only [run, hh] at h
          exact ih _ h
  | ask q next ih | read slot next ih | now next ih => exact ih _ h
  | store slot value next ih => exact ih h

/-- The client waits for everything and hears everything. -/
structure World.Attended (w : World σ) : Prop where
  waits : ∀ lapse s, ∃ s', w.pass lapse s = some s'
  hears : ∀ event s, ∃ s', w.hear event s = some (true, s')

theorem World.Attended.not_abandons {w : World σ} (h : w.Attended) : ¬ w.Abandons := by
  rintro (⟨lapse, s, hp⟩ | ⟨event, s, hh⟩)
  · obtain ⟨s', hs'⟩ := h.waits lapse s
    rw [hp] at hs'
    cases hs'
  · obtain ⟨s', hs'⟩ := h.hears event s
    rw [hh] at hs'
    cases hs'

theorem World.Attended.run_isSome {w : World σ} (h : w.Attended) (d : Dialogue α) (s : Scene σ) :
    (d.run w s).1.isSome := by
  rw [Option.isSome_iff_ne_none]
  exact fun hnone => h.not_abandons (run_abandoned hnone)

theorem World.Attended.heard {w : World σ} (h : w.Attended) {event : Stream.Event} {heard : Bool}
    (hs : w.Shows (.sent event heard)) : heard = true := by
  obtain ⟨s, s', hh⟩ := hs
  obtain ⟨s'', hh'⟩ := h.hears event s
  rw [hh] at hh'
  simp_all

/-- A world in which the models reply as given, nothing else can be had, and the client stays. -/
def World.replying (reply : Call → Reply) (signals : List Stream.Signal) : World Unit where
  answer
    | .completion call, s => (.now (.ok (reply call)), s)
    | .stream _, s => (.now (.ok signals), s)
    | .session, s | .accessToken _, s | .wallet _ _, s | .orders _ _, s | .transactions _ _, s |
      .index _ _ _ _ _, s | .page _ _, s | .overview, s | .search _ _, s =>
        (.now (.error (.io "unreachable")), s)
  pass _ s := some s
  hear _ s := some (true, s)
  today _ := ⟨0, 0⟩
  instant _ := 0

theorem World.replying_attended (reply : Call → Reply) (signals : List Stream.Signal) :
    (replying reply signals).Attended :=
  ⟨fun _ s => ⟨s, rfl⟩, fun _ s => ⟨s, rfl⟩⟩

/-- The same world with a client who is gone after so many events. -/
def World.leaving (w : World σ) : World (σ × Nat) where
  answer q s := ((w.answer q s.1).1, (w.answer q s.1).2, s.2)
  pass lapse s := (w.pass lapse s.1).map (·, s.2)
  hear event s :=
    match s.2 with
    | 0 => some (false, s)
    | left + 1 => (w.hear event s.1).map fun heard => (heard.1, heard.2, left)
  today s := w.today s.1
  instant s := w.instant s.1

namespace Dialogue

theorem course_pure {a : α} (h : Course (pure a : Dialogue α) acts r) : acts = [] ∧ r = some a := by
  cases h
  exact ⟨rfl, rfl⟩

/-- A course of a dialogue, and then one of what follows it; an abandoned dialogue is followed by
nothing. -/
def Joined (d : Dialogue α) (f : α → Dialogue β) (acts : List Act) (r : Option β) : Prop :=
  (∃ a before after, acts = before ++ after ∧ Course d before (some a) ∧ Course (f a) after r) ∨
    (r = none ∧ Course d acts none)

theorem Joined.after {d e : Dialogue α} {f : α → Dialogue β} (first : List Act)
    (step : ∀ {acts r}, Course d acts r → Course e (first ++ acts) r) (h : Joined d f acts r) :
    Joined e f (first ++ acts) r := by
  rcases h with ⟨a, before, after, rfl, hd, hf⟩ | ⟨hr, hd⟩
  · exact .inl ⟨a, first ++ before, after, by simp, step hd, hf⟩
  · exact .inr ⟨hr, step hd⟩

theorem Joined.of_some {d : Dialogue α} {f : α → Dialogue β} (h : Joined d f acts (some b)) :
    ∃ a before after, acts = before ++ after ∧ Course d before (some a) ∧
      Course (f a) after (some b) := by
  rcases h with hjoined | ⟨he, _⟩
  · exact hjoined
  · cases he

theorem course_bind {d : Dialogue α} {f : α → Dialogue β} (h : Course (d >>= f) acts r) :
    Joined d f acts r := by
  change Course (d.bind f) acts r at h
  induction d generalizing acts with
  | done a => exact .inl ⟨a, [], acts, rfl, .done a, h⟩
  | ask q next ih =>
      cases h with
      | ask arrival rest => exact (ih arrival rest).after [.asked q arrival] (.ask arrival)
  | wait lapse next ih =>
      cases h with
      | wait rest => exact (ih rest).after [] .wait
      | leftWaiting => exact .inr ⟨rfl, .leftWaiting⟩
  | send event next ih =>
      cases h with
      | send heard rest => exact (ih heard rest).after [.sent event heard] (.send heard)
      | leftSending => exact .inr ⟨rfl, .leftSending⟩
  | read slot next ih =>
      cases h with
      | read v rest => exact (ih v rest).after [] (.read v)
  | store slot value next ih =>
      cases h with
      | store rest => exact (ih rest).after [] .store
  | now next ih =>
      cases h with
      | now t rest => exact (ih t rest).after [] (.now t)

theorem Course.bind {d : Dialogue α} {f : α → Dialogue β} (hd : Course d before (some a))
    (hf : Course (f a) after r) : Course (d >>= f) (before ++ after) r := by
  change Course (d.bind f) (before ++ after) r
  generalize hresult : some a = result at hd
  induction hd with
  | done b =>
      cases hresult
      exact hf
  | ask arrival rest ih => exact .ask arrival (ih hresult)
  | wait rest ih => exact .wait (ih hresult)
  | send heard rest ih => exact .send heard (ih hresult)
  | read v rest ih => exact .read v (ih hresult)
  | store rest ih => exact .store (ih hresult)
  | now t rest ih => exact .now t (ih hresult)
  | leftWaiting | leftSending => cases hresult

theorem course_put {q : Question} {r : Option (Arrival q.Answer)} (h : Course (put q) acts r) :
    ∃ arrival, acts = [.asked q arrival] ∧ r = some arrival := by
  cases h with
  | ask arrival rest => cases rest with | done => exact ⟨arrival, rfl, rfl⟩

theorem course_pause (h : Course (pause lapse) acts r) : acts = [] ∧ (r = some () ∨ r = none) := by
  cases h with
  | wait rest => cases rest with | done => exact ⟨rfl, .inl rfl⟩
  | leftWaiting => exact ⟨rfl, .inr rfl⟩

theorem course_await {q : Question} {r : Option (Except Failure q.Answer)}
    (h : Course (await q) acts r) :
    ∃ arrival, acts = [.asked q arrival] ∧ (r = some arrival.result ∨ r = none) := by
  cases h with
  | ask arrival rest =>
      cases rest with
      | wait rest => cases rest with | done => exact ⟨arrival, rfl, .inl rfl⟩
      | leftWaiting => exact ⟨arrival, rfl, .inr rfl⟩

theorem course_askWithin {q : Question} {r : Option (Except Failure q.Answer)}
    (h : Course (askWithin limitMs q) acts r) :
    ∃ arrival, acts = [.asked q arrival] ∧
      (r = some (arrival.limited limitMs).result ∨ r = none) := by
  cases h with
  | ask arrival rest =>
      cases rest with
      | wait rest => cases rest with | done => exact ⟨arrival, rfl, .inl rfl⟩
      | leftWaiting => exact ⟨arrival, rfl, .inr rfl⟩

/-- The course of a dialogue that may be broken off: what is broken off has gone as if it had been
abandoned. -/
def Limited (d : Dialogue α) (acts : List Act) (r : Option (Option α)) : Prop :=
  (∃ a, r = some (some a) ∧ Course d acts (some a)) ∨
    ((r = some none ∨ r = none) ∧ Course d acts none)

theorem Limited.after {d e : Dialogue α} (first : List Act)
    (step : ∀ {acts r}, Course d acts r → Course e (first ++ acts) r) (h : Limited d acts r) :
    Limited e (first ++ acts) r := by
  rcases h with ⟨a, hr, hd⟩ | ⟨hr, hd⟩
  · exact .inl ⟨a, hr, step hd⟩
  · exact .inr ⟨hr, step hd⟩

theorem course_within {d : Dialogue α} (h : Course (within left d) acts r) : Limited d acts r := by
  induction d generalizing left acts with
  | done a => cases h with | done => exact .inl ⟨a, rfl, .done a⟩
  | ask q next ih =>
      cases h with
      | ask arrival rest => exact (ih arrival rest).after [.asked q arrival] (.ask arrival)
  | wait lapse next ih =>
      rw [within] at h
      split at h
      · cases h with
        | wait rest => exact (ih rest).after [] .wait
        | leftWaiting => exact .inr ⟨.inr rfl, .leftWaiting⟩
      · cases h with
        | wait rest => cases rest with | done => exact .inr ⟨.inl rfl, .leftWaiting⟩
        | leftWaiting => exact .inr ⟨.inr rfl, .leftWaiting⟩
  | send event next ih =>
      cases h with
      | send heard rest => exact (ih heard rest).after [.sent event heard] (.send heard)
      | leftSending => exact .inr ⟨.inr rfl, .leftSending⟩
  | read slot next ih =>
      cases h with
      | read v rest => exact (ih v rest).after [] (.read v)
  | store slot value next ih =>
      cases h with
      | store rest => exact (ih rest).after [] .store
  | now next ih =>
      cases h with
      | now t rest => exact (ih t rest).after [] (.now t)

end Dialogue

namespace Attempt

theorem course_bind {x : Attempt α} {f : α → Attempt β} (h : Course (x >>= f).run acts r) :
    (∃ a before after, acts = before ++ after ∧ Course x.run before (some (.ok a)) ∧
        Course (f a).run after r) ∨
      (∃ e, r = some (.error e) ∧ Course x.run acts (some (.error e))) ∨
      (r = none ∧ Course x.run acts none) := by
  rw [ExceptT.run_bind] at h
  rcases Dialogue.course_bind h with ⟨result, before, after, rfl, hx, hf⟩ | hx
  · cases result with
    | ok a => exact .inl ⟨a, before, after, rfl, hx, hf⟩
    | error e =>
        obtain ⟨rfl, rfl⟩ := course_pure hf
        exact .inr (.inl ⟨e, rfl, by simpa using hx⟩)
  · exact .inr (.inr hx)

theorem course_bind_ok {x : Attempt α} {f : α → Attempt β}
    (h : Course (x >>= f).run acts (some (.ok b))) :
    ∃ a before after, acts = before ++ after ∧ Course x.run before (some (.ok a)) ∧
      Course (f a).run after (some (.ok b)) := by
  rcases course_bind h with hboth | ⟨e, he, _⟩ | ⟨he, _⟩
  · exact hboth
  · cases he
  · cases he

theorem course_bind_mono {x : Attempt α} {f g : α → Attempt β}
    (h : Course (x >>= f).run acts (some result))
    (hfg : ∀ a acts, Course (f a).run acts (some result) → Course (g a).run acts (some result)) :
    Course (x >>= g).run acts (some result) := by
  rw [ExceptT.run_bind] at h ⊢
  obtain ⟨made, before, after, rfl, hx, hf⟩ := (Dialogue.course_bind h).of_some
  refine hx.bind ?_
  cases made with
  | ok a => exact hfg a after hf
  | error e => exact hf

theorem course_lift_bind {d : Dialogue α} {f : α → Attempt β}
    (h : Course (ExceptT.lift d >>= f).run acts r) : Joined d (fun a => (f a).run) acts r := by
  rw [ExceptT.run_bind_lift] at h
  exact Dialogue.course_bind h

theorem course_lift {d : Dialogue α} {r : Option (Except Failure α)}
    (h : Course (ExceptT.lift d : Attempt α).run acts r) :
    (∃ a, r = some (.ok a) ∧ Course d acts (some a)) ∨ (r = none ∧ Course d acts none) := by
  rw [ExceptT.run_lift, map_eq_pure_bind] at h
  rcases Dialogue.course_bind h with ⟨a, before, after, rfl, hd, hp⟩ | hd
  · obtain ⟨rfl, rfl⟩ := course_pure hp
    exact .inl ⟨a, rfl, by simpa using hd⟩
  · exact .inr hd

theorem course_await {q : Question} {r : Option (Except Failure q.Answer)}
    (h : Course (await q).run acts r) :
    ∃ arrival, acts = [.asked q arrival] ∧ (r = some arrival.result ∨ r = none) :=
  Dialogue.course_await h

theorem course_send (h : Course (send event).run acts r) :
    (acts = [.sent event true] ∧ r = some (.ok ())) ∨
      (acts = [.sent event false] ∧ r = some (.error .cancelled)) ∨ (acts = [] ∧ r = none) := by
  cases h with
  | send heard rest =>
      cases heard with
      | true => cases rest with | done => exact .inl ⟨rfl, rfl⟩
      | false => cases rest with | done => exact .inr (.inl ⟨rfl, rfl⟩)
  | leftSending => exact .inr (.inr ⟨rfl, rfl⟩)

theorem course_send_bind {f : Unit → Attempt β} (h : Course (send event >>= f).run acts r) :
    (∃ rest, acts = .sent event true :: rest ∧ Course (f ()).run rest r) ∨
      (acts = [.sent event false] ∧ r = some (.error .cancelled)) ∨ (acts = [] ∧ r = none) := by
  rcases course_bind h with ⟨_, before, after, rfl, hs, hf⟩ | ⟨e, rfl, hs⟩ | ⟨rfl, hs⟩
  · rcases course_send hs with ⟨rfl, _⟩ | ⟨_, he⟩ | ⟨_, he⟩
    · exact .inl ⟨after, rfl, hf⟩
    · cases he
    · cases he
  · rcases course_send hs with ⟨_, he⟩ | ⟨rfl, he⟩ | ⟨_, he⟩
    · cases he
    · cases he
      exact .inr (.inl ⟨rfl, rfl⟩)
    · cases he
  · rcases course_send hs with ⟨_, he⟩ | ⟨_, he⟩ | ⟨rfl, _⟩
    · cases he
    · cases he
    · exact .inr (.inr ⟨rfl, rfl⟩)

theorem course_within {x : Attempt α} (h : Course (within limitMs x).run acts r) :
    (∃ result, r = some result ∧ Course x.run acts (some result)) ∨
      ((r = some (.error (.timedOut limitMs)) ∨ r = none) ∧ Course x.run acts none) := by
  rcases Dialogue.course_bind h with ⟨result, before, after, rfl, hw, hf⟩ | ⟨rfl, hw⟩
  · rcases Dialogue.course_within hw with ⟨a, he, hx⟩ | ⟨he, hx⟩
    · cases he
      obtain ⟨rfl, rfl⟩ := course_pure hf
      exact .inl ⟨a, rfl, by simpa using hx⟩
    · obtain rfl : result = none := by simpa using he
      obtain ⟨rfl, rfl⟩ := course_pure hf
      exact .inr ⟨.inl rfl, by simpa using hx⟩
  · rcases Dialogue.course_within hw with ⟨a, he, _⟩ | ⟨_, hx⟩
    · cases he
    · exact .inr ⟨.inr rfl, hx⟩

theorem run_bind_cases (w : World σ) (x : Attempt α) (f : α → Attempt β) (s : Scene σ) :
    (∃ a t, x.run.run w s = (some (.ok a), t) ∧ (x >>= f).run.run w s = (f a).run.run w t) ∨
      ((x >>= f).run.run w s).2 = (x.run.run w s).2 ∧
        ∀ b, ((x >>= f).run.run w s).1 ≠ some (.ok b) := by
  rw [run_bind]
  rcases x.run.run w s with ⟨_ | e | a, t⟩
  · exact .inr ⟨rfl, fun b he => by cases he⟩
  · exact .inr ⟨rfl, fun b he => by cases he⟩
  · exact .inl ⟨a, t, rfl, rfl⟩

theorem run_bind_ok {w : World σ} {x : Attempt α} {f : α → Attempt β} {s u : Scene σ}
    (h : (x >>= f).run.run w s = (some (.ok b), u)) :
    ∃ a t, x.run.run w s = (some (.ok a), t) ∧ (f a).run.run w t = (some (.ok b), u) := by
  rcases run_bind_cases w x f s with ⟨a, t, hx, hf⟩ | ⟨_, hstops⟩
  · exact ⟨a, t, hx, hf.symm.trans h⟩
  · exact absurd (congrArg Prod.fst h) (hstops b)

end Attempt

end Advisor

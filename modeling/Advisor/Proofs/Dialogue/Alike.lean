import Advisor.Proofs.Dialogue.Lockstep

namespace Advisor

open Dialogue

variable {w : World σ} {w' : World τ} {R : σ → τ → Prop}

/-- An event is heard in both worlds or in neither, or both abandon the dialogue over it. -/
def HeardAlike (R : σ → τ → Prop) : Option (Bool × σ) → Option (Bool × τ) → Prop :=
  Option.Rel fun a b => a.1 = b.1 ∧ R a.2 b.2

/-- Two worlds that do the same in related states. -/
structure Alike (w : World σ) (w' : World τ) (R : σ → τ → Prop) : Prop where
  answers : ∀ {s t} (q : Question), R s t →
    (w.answer q s).1 = (w'.answer q t).1 ∧ R (w.answer q s).2 (w'.answer q t).2
  waits : ∀ {s t} (lapse : Lapse), R s t → Option.Rel R (w.pass lapse s) (w'.pass lapse t)
  hears : ∀ {s t} (event : Stream.Event), R s t → HeardAlike R (w.hear event s) (w'.hear event t)
  today : ∀ {s t}, R s t → w.today s = w'.today t
  instant : ∀ {s t}, R s t → w.instant s = w'.instant t

/-- A dialogue that comes to the same by the same acts from scenes abreast, and leaves them abreast. -/
def GoesAlike (w : World σ) (w' : World τ) (R : σ → τ → Prop) (d : Dialogue α) : Prop :=
  ∀ s t, Abreast True R s t → ∃ r acts s' t', d.run w s = (r, s') ∧ d.run w' t = (r, t') ∧
    Abreast True R s' t' ∧ s'.acts = s.acts ++ acts ∧ t'.acts = t.acts ++ acts

theorem goesAlike_done (a : α) : GoesAlike w w' R (.done a) := by
  intro s t hs
  exact ⟨some a, [], s, t, rfl, rfl, hs, (List.append_nil _).symm, (List.append_nil _).symm⟩

theorem run_send_alike {s : Scene σ} {t : Scene τ} {event event' : Stream.Event}
    (next : Bool → Dialogue α) (next' : Bool → Dialogue β)
    (h : HeardAlike R (w.hear event s.outside) (w'.hear event' t.outside)) :
    ((send event next).run w s = (none, s) ∧ (send event' next').run w' t = (none, t)) ∨
      ∃ heard outside outside', R outside outside' ∧
        (send event next).run w s =
          (next heard).run w { s.act (.sent event heard) with outside := outside } ∧
        (send event' next').run w' t =
          (next' heard).run w' { t.act (.sent event' heard) with outside := outside' } := by
  simp only [run]
  generalize w.hear event s.outside = x at h
  generalize w'.hear event' t.outside = y at h
  cases h with
  | none => exact .inl ⟨rfl, rfl⟩
  | @some a b hab =>
      obtain ⟨heard, outside⟩ := a
      obtain ⟨heard', outside'⟩ := b
      obtain ⟨rfl, hR⟩ := hab
      exact .inr ⟨heard, outside, outside', hR, rfl, rfl⟩

theorem goesAlike_send {event : Stream.Event} {next : Bool → Dialogue α}
    (hears : ∀ {s t}, R s t → HeardAlike R (w.hear event s) (w'.hear event t))
    (hn : ∀ heard, GoesAlike w w' R (next heard)) : GoesAlike w w' R (.send event next) := by
  intro s t hs
  rcases run_send_alike next next (hears hs.outside) with
    ⟨hrun, hrun'⟩ | ⟨heard, outside, outside', hR, hrun, hrun'⟩
  · exact ⟨none, [], s, t, hrun, hrun', hs, (List.append_nil _).symm, (List.append_nil _).symm⟩
  · obtain ⟨r, acts, s', t', hnext, hnext', habreast, hacts, hacts'⟩ :=
      hn heard { s.act (.sent event heard) with outside := outside }
        { t.act (.sent event heard) with outside := outside' } ⟨hR, hs.memory⟩
    refine ⟨r, .sent event heard :: acts, s', t', hrun.trans hnext, hrun'.trans hnext', habreast,
      ?_, ?_⟩
    · simpa [Scene.act] using hacts
    · simpa [Scene.act] using hacts'

theorem GoesAlike.bind {d : Dialogue α} {f : α → Dialogue β} (hd : GoesAlike w w' R d)
    (hf : ∀ a, GoesAlike w w' R (f a)) : GoesAlike w w' R (d >>= f) := by
  intro s t hs
  change ∃ r acts s' t', (d.bind f).run w s = (r, s') ∧ (d.bind f).run w' t = (r, t') ∧ _
  obtain ⟨r, before, s', t', hrun, hrun', habreast, hbefore, hbefore'⟩ := hd s t hs
  rw [run_bind, run_bind, hrun, hrun']
  cases r with
  | none => exact ⟨none, before, s', t', rfl, rfl, habreast, hbefore, hbefore'⟩
  | some a =>
      obtain ⟨r, after, s'', t'', hrun, hrun', habreast, hafter, hafter'⟩ := hf a s' t' habreast
      refine ⟨r, before ++ after, s'', t'', hrun, hrun', habreast, ?_, ?_⟩
      · rw [hafter, hbefore, List.append_assoc]
      · rw [hafter', hbefore', List.append_assoc]

theorem Alike.goes (h : Alike w w' R) (d : Dialogue α) : GoesAlike w w' R d := by
  induction d with
  | done a => exact goesAlike_done a
  | ask q next ih =>
      intro s t hs
      obtain ⟨harrival, houtside⟩ := h.answers q hs.outside
      obtain ⟨r, acts, s', t', hrun, hrun', habreast, hacts, hacts'⟩ :=
        ih (w.answer q s.outside).1
          { s.act (.asked q (w.answer q s.outside).1) with outside := (w.answer q s.outside).2 }
          { t.act (.asked q (w.answer q s.outside).1) with outside := (w'.answer q t.outside).2 }
          ⟨houtside, hs.memory⟩
      refine ⟨r, .asked q (w.answer q s.outside).1 :: acts, s', t', hrun, ?_, habreast, ?_, ?_⟩
      · rw [harrival] at hrun'
        exact hrun'
      · simpa [Scene.act] using hacts
      · simpa [Scene.act] using hacts'
  | wait lapse next ih =>
      intro s t hs
      have hwaits := h.waits lapse hs.outside
      generalize hw : w.pass lapse s.outside = x at hwaits
      generalize hw' : w'.pass lapse t.outside = y at hwaits
      cases hwaits with
      | none =>
          refine ⟨none, [], s, t, ?_, ?_, hs, (List.append_nil _).symm, (List.append_nil _).symm⟩
          · simp only [run, hw]
          · simp only [run, hw']
      | @some outside outside' hR =>
          obtain ⟨r, acts, s', t', hrun, hrun', hrest⟩ :=
            ih { s with outside := outside } { t with outside := outside' } ⟨hR, hs.memory⟩
          refine ⟨r, acts, s', t', ?_, ?_, hrest⟩
          · simp only [run, hw]
            exact hrun
          · simp only [run, hw']
            exact hrun'
  | send event next ih => exact goesAlike_send (h.hears event) ih
  | read slot next ih =>
      intro s t hs
      have hmemory := hs.memory trivial
      have hinstant := h.instant hs.outside
      obtain ⟨r, acts, s', t', hrun, hrun', hrest⟩ :=
        ih (s.memory.get? (w.instant s.outside) slot) s t hs
      refine ⟨r, acts, s', t', hrun, ?_, hrest⟩
      rw [hmemory, hinstant] at hrun'
      exact hrun'
  | store slot value next ih =>
      intro s t hs
      have hmemory := hs.memory trivial
      have hinstant := h.instant hs.outside
      exact ih { s with memory := s.memory.store (w.instant s.outside) slot value }
        { t with memory := t.memory.store (w'.instant t.outside) slot value }
        ⟨hs.outside, fun _ => by simp only [hmemory, hinstant]⟩
  | now next ih =>
      intro s t hs
      have htoday := h.today hs.outside
      obtain ⟨r, acts, s', t', hrun, hrun', hrest⟩ := ih (w.today s.outside) s t hs
      refine ⟨r, acts, s', t', hrun, ?_, hrest⟩
      rw [htoday] at hrun'
      exact hrun'

namespace Attempt

theorem goesAlike_bind {x : Attempt α} {f : α → Attempt β} (hx : GoesAlike w w' R x.run)
    (hf : ∀ a, GoesAlike w w' R (f a).run) : GoesAlike w w' R (x >>= f).run := by
  rw [ExceptT.run_bind]
  refine hx.bind fun result => ?_
  cases result with
  | ok a => exact hf a
  | error e => exact goesAlike_done (Except.error e)

theorem run_map (w : World σ) (f : α → β) (x : Attempt α) (s : Scene σ) :
    (f <$> x).run.run w s = ((x.run.run w s).1.map (Except.map f), (x.run.run w s).2) := by
  rw [map_eq_pure_bind, Attempt.run_bind]
  generalize x.run.run w s = run
  obtain ⟨result, t⟩ := run
  cases result with
  | none => rfl
  | some result => cases result <;> rfl

end Attempt

end Advisor

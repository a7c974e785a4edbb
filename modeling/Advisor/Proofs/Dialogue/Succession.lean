import Advisor.Proofs.Dialogue.Course
import Mathlib.Logic.Relation

namespace Advisor

/-- One thing that happens to a world in a dialogue. -/
inductive World.Moves (w : World σ) : σ → σ → Prop
  | answer (q : Question) (s : σ) : Moves w s (w.answer q s).2
  | pass (hp : w.pass lapse s = some s') : Moves w s s'
  | hear (hh : w.hear event s = some (heard, s')) : Moves w s s'

/-- A world gets from a state to another, in any number of moves. -/
def World.Leads (w : World σ) : σ → σ → Prop := Relation.ReflTransGen w.Moves

/-- The clock for what is kept does not go back. -/
def World.Onward (w : World σ) : Prop := ∀ s s', w.Moves s s' → w.instant s ≤ w.instant s'

theorem World.Onward.leads {w : World σ} (hw : w.Onward) {s s' : σ} (h : w.Leads s s') :
    w.instant s ≤ w.instant s' := by
  induction h with
  | refl => exact Nat.le_refl _
  | tail _ hmove ih => exact Nat.le_trans ih (hw _ _ hmove)

namespace Dialogue

variable {w : World σ} {s t : Scene σ}

theorem run_leads (w : World σ) (d : Dialogue α) (s : Scene σ) :
    w.Leads s.outside (d.run w s).2.outside := by
  induction d generalizing s with
  | done a => exact .refl
  | ask q next ih =>
      exact .head (.answer q s.outside) (ih _
        { s.act (.asked q (w.answer q s.outside).1) with outside := (w.answer q s.outside).2 })
  | wait lapse next ih =>
      cases hp : w.pass lapse s.outside with
      | none => simpa only [run, hp] using .refl
      | some outside => simpa only [run, hp] using .head (.pass hp) (ih { s with outside })
  | send event next ih =>
      cases hh : w.hear event s.outside with
      | none => simpa only [run, hh] using .refl
      | some answer =>
          obtain ⟨heard, outside⟩ := answer
          simpa only [run, hh] using .head (.hear hh)
            (ih heard { s.act (.sent event heard) with outside })
  | read slot next ih => exact ih _ _
  | store slot value next ih =>
      exact ih { s with memory := s.memory.store (w.instant s.outside) slot value }
  | now next ih => exact ih _ _

theorem leads_of_run {d : Dialogue α} (h : d.run w s = (r, t)) : w.Leads s.outside t.outside := by
  simpa only [h] using run_leads w d s

theorem run_bind_some {d : Dialogue α} {f : α → Dialogue β} (h : (d >>= f).run w s = (some b, t)) :
    ∃ a u, d.run w s = (some a, u) ∧ (f a).run w u = (some b, t) := by
  change (d.bind f).run w s = (some b, t) at h
  rw [run_bind] at h
  cases hd : d.run w s with
  | mk result u =>
      rw [hd] at h
      cases result with
      | none => cases h
      | some a => exact ⟨a, u, rfl, h⟩

theorem exists_of_run {d : Dialogue α} (holds : α → Bool) (h : (d.run w s).1.any holds = true) :
    ∃ a t, d.run w s = (some a, t) ∧ holds a := by
  obtain ⟨result, t, hrun⟩ : ∃ result t, d.run w s = (result, t) := ⟨_, _, rfl⟩
  rw [hrun] at h
  match result, h with
  | some a, h => exact ⟨a, t, hrun, h⟩

theorem run_pure {a b : α} (h : (pure a : Dialogue α).run w s = (some b, t)) : a = b ∧ s = t := by
  cases h
  exact ⟨rfl, rfl⟩

theorem run_put {q : Question} {arrival : Arrival q.Answer}
    (h : (put q).run w s = (some arrival, t)) :
    t.acts = s.acts ++ [.asked q arrival] ∧ t.memory = s.memory := by
  cases h
  exact ⟨rfl, rfl⟩

theorem run_pause {lapse : Lapse} {u : Unit} (h : (pause lapse).run w s = (some u, t)) :
    ∃ outside, w.pass lapse s.outside = some outside ∧ t = { s with outside } := by
  simp only [pause, run] at h
  split at h
  case h_1 outside hpass =>
      cases h
      exact ⟨outside, hpass, rfl⟩
  case h_2 => cases h

theorem run_await {q : Question} {result : Except Failure q.Answer}
    (h : (await q).run w s = (some result, t)) :
    ∃ lapse, t.acts = s.acts ++ [.asked q ⟨lapse, result⟩] ∧ t.memory = s.memory := by
  obtain ⟨arrival, u, hput, h⟩ := run_bind_some h
  obtain ⟨hacts, hmemory⟩ := run_put hput
  obtain ⟨_, v, hpause, h⟩ := run_bind_some h
  obtain ⟨rfl, rfl⟩ := run_pure h
  obtain ⟨outside, _, rfl⟩ := run_pause hpause
  exact ⟨arrival.lapse, hacts, hmemory⟩

theorem run_remembered {slot : Slot} {v : Option slot.Value}
    (h : (remembered slot).run w s = (some v, t)) :
    v = s.memory.get? (w.instant s.outside) slot ∧ t = s := by
  cases h
  exact ⟨rfl, rfl⟩

theorem run_takeEach_cons {take : β → α → Dialogue β}
    (h : (takeEach take elapsed b ((lapse, a) :: rest)).run w s = (some r, t)) :
    ∃ outside taken u, w.pass (lapse.after elapsed) s.outside = some outside ∧
      (take b a).run w { s with outside } = (some taken, u) ∧
      (takeEach take (max elapsed lapse.ms) taken rest).run w u = (some r, t) := by
  obtain ⟨_, v, hpause, h⟩ := run_bind_some h
  obtain ⟨outside, hpass, rfl⟩ := run_pause hpause
  obtain ⟨taken, u, htake, h⟩ := run_bind_some h
  exact ⟨outside, taken, u, hpass, htake, h⟩

end Dialogue

theorem World.Attended.exists_run {w : World σ} (h : w.Attended) (d : Dialogue α) (s : Scene σ) :
    ∃ a t, d.run w s = (some a, t) := by
  obtain ⟨a, ha⟩ := Option.isSome_iff_exists.1 (h.run_isSome d s)
  exact ⟨a, _, Prod.ext ha rfl⟩

end Advisor

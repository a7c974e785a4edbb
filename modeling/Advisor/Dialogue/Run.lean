import Advisor.Dialogue.Basic

namespace Advisor

/-- All that is outside a dialogue, as a machine with states in `σ`. While time passes it may abandon the
dialogue. -/
structure World (σ : Type) where
  answer : (q : Question) → σ → Arrival q.Answer × σ
  pass : Lapse → σ → Option σ
  hear : Stream.Event → σ → Option (Bool × σ)
  today : σ → Timestamp
  /-- A clock in milliseconds, for what is kept. -/
  instant : σ → Nat

/-- What a dialogue did that shows outside, and what came of it. -/
inductive Act
  | asked (q : Question) (arrival : Arrival q.Answer)
  | sent (event : Stream.Event) (heard : Bool)

namespace Act

def question? : Act → Option Question
  | asked q _ => some q
  | sent _ _ => none

def heard? : Act → Option Stream.Event
  | sent event true => some event
  | _ => none

end Act

structure Scene (σ : Type) where
  outside : σ
  memory : Memory
  acts : List Act

namespace Scene

def asked (s : Scene σ) : List Question :=
  s.acts.filterMap Act.question?

def heard (s : Scene σ) : List Stream.Event :=
  s.acts.filterMap Act.heard?

def act (s : Scene σ) (a : Act) : Scene σ :=
  { s with acts := s.acts ++ [a] }

end Scene

namespace Dialogue

/-- Carries a dialogue out in a world. There is no result if the world abandons it. -/
def run (w : World σ) : Dialogue α → Scene σ → Option α × Scene σ
  | done a, s => (some a, s)
  | ask q next, s =>
      let (arrival, outside) := w.answer q s.outside
      run w (next arrival) { s.act (.asked q arrival) with outside }
  | wait lapse next, s =>
      match w.pass lapse s.outside with
      | some outside => run w next { s with outside }
      | none => (none, s)
  | send event next, s =>
      match w.hear event s.outside with
      | some (heard, outside) => run w (next heard) { s.act (.sent event heard) with outside }
      | none => (none, s)
  | read slot next, s => run w (next (s.memory.get? (w.instant s.outside) slot)) s
  | store slot value next, s =>
      run w next { s with memory := s.memory.store (w.instant s.outside) slot value }
  | now next, s => run w (next (w.today s.outside)) s

theorem run_bind (w : World σ) (d : Dialogue α) (f : α → Dialogue β) (s : Scene σ) :
    (d.bind f).run w s =
      match d.run w s with
      | (some a, s) => (f a).run w s
      | (none, s) => (none, s) := by
  induction d generalizing s with
  | done a => rfl
  | ask q next ih => simp only [bind, run]; exact ih _ _
  | wait lapse next ih =>
      simp only [bind, run]
      cases w.pass lapse s.outside with
      | none => rfl
      | some outside => exact ih _
  | send event next ih =>
      simp only [bind, run]
      cases w.hear event s.outside with
      | none => rfl
      | some r => exact ih _ _
  | read slot next ih => simp only [bind, run]; exact ih _ _
  | store slot value next ih => simp only [bind, run]; exact ih _
  | now next ih => simp only [bind, run]; exact ih _ _

end Dialogue

theorem Attempt.run_bind (w : World σ) (x : Attempt α) (f : α → Attempt β) (s : Scene σ) :
    (x >>= f).run.run w s =
      match x.run.run w s with
      | (some (.ok a), s) => (f a).run.run w s
      | (some (.error e), s) => (some (.error e), s)
      | (none, s) => (none, s) := by
  rw [ExceptT.run_bind]
  change (x.run.bind _).run w s = _
  rw [Dialogue.run_bind]
  cases x.run.run w s with
  | mk r s =>
      cases r with
      | none => rfl
      | some result => cases result <;> rfl

end Advisor

import Advisor.Proofs.Dialogue.Asking

namespace Advisor

open Dialogue

def Question.IsStream : Question → Prop
  | stream _ => True
  | _ => False

namespace Dialogue

/-- The second dialogue does what the first does, and tells a client of it that hears everything.
What they come to is in `P`. Only if `timed` do they look at clocks and at what is remembered. -/
inductive Narrates (timed : Prop) (P : α → Prop) : Dialogue α → Dialogue α → Prop
  | done (ha : P a) : Narrates timed P (.done a) (.done a)
  | ask {q : Question} {next next' : Arrival q.Answer → Dialogue α} (hq : ¬ q.IsStream)
      (hn : ∀ arrival, Narrates timed P (next arrival) (next' arrival)) :
      Narrates timed P (.ask q next) (.ask q next')
  | wait (hn : Narrates timed P next next') :
      Narrates timed P (.wait lapse next) (.wait lapse next')
  | tell {next' : Bool → Dialogue α} (hn : Narrates timed P next (next' true)) :
      Narrates timed P next (.send event next')
  | read (ht : timed) {slot : Slot} {next next' : Option slot.Value → Dialogue α}
      (hn : ∀ v, Narrates timed P (next v) (next' v)) :
      Narrates timed P (.read slot next) (.read slot next')
  | store (ht : timed) (hn : Narrates timed P next next') :
      Narrates timed P (.store slot value next) (.store slot value next')
  | now (ht : timed) {next next' : Timestamp → Dialogue α}
      (hn : ∀ t, Narrates timed P (next t) (next' t)) : Narrates timed P (.now next) (.now next')

variable {timed : Prop}

theorem Narrates.bind {P : α → Prop} {Q : β → Prop} {d d' : Dialogue α} {f f' : α → Dialogue β}
    (hd : Narrates timed P d d') (hf : ∀ a, P a → Narrates timed Q (f a) (f' a)) :
    Narrates timed Q (d >>= f) (d' >>= f') := by
  change Narrates timed Q (d.bind f) (d'.bind f')
  induction hd with
  | done ha => exact hf _ ha
  | ask hq hn ih => exact .ask hq ih
  | wait hn ih => exact .wait ih
  | tell hn ih => exact .tell ih
  | read ht hn ih => exact .read ht ih
  | store ht hn ih => exact .store ht ih
  | now ht hn ih => exact .now ht ih

theorem Asks.narrates {kind : Question → Prop} {d : Dialogue α} (hd : d.Asks kind)
    (hk : ∀ q, kind q → ¬ q.IsStream) : Narrates True (fun _ => True) d d := by
  induction hd with
  | done a => exact .done trivial
  | ask hq hn ih => exact .ask (hk _ hq) ih
  | wait hn ih => exact .wait ih
  | read hn ih => exact .read trivial ih
  | store hn ih => exact .store trivial ih
  | now hn ih => exact .now trivial ih

end Dialogue

def Succeeds (result : Except Failure α) : Prop := ∃ a, result = .ok a

namespace Attempt

variable {timed : Prop}

theorem narrates_pure (a : α) :
    Narrates timed Succeeds (pure a : Attempt α).run (pure a : Attempt α).run := .done ⟨a, rfl⟩

theorem narrates_bind {x x' : Attempt α} {f f' : α → Attempt β}
    (hx : Narrates timed Succeeds x.run x'.run)
    (hf : ∀ a, Narrates timed Succeeds (f a).run (f' a).run) :
    Narrates timed Succeeds (x >>= f).run (x' >>= f').run := by
  rw [ExceptT.run_bind, ExceptT.run_bind]
  refine hx.bind ?_
  rintro result ⟨a, rfl⟩
  exact hf a

theorem narrates_lift {d d' : Dialogue α} (hd : Narrates timed (fun _ => True) d d') :
    Narrates timed Succeeds (ExceptT.lift d : Attempt α).run (ExceptT.lift d' : Attempt α).run := by
  rw [ExceptT.run_lift, ExceptT.run_lift, map_eq_pure_bind, map_eq_pure_bind]
  exact hd.bind fun a _ => .done ⟨a, rfl⟩

end Attempt

/-- Two worlds that answer alike in related states; in the second there is a client besides that
stays. -/
structure Lockstep (timed : Prop) (w : World σ) (w' : World τ) (R : σ → τ → Prop) : Prop where
  answers : ∀ {s t} (q : Question), R s t → ¬ q.IsStream →
    (w.answer q s).1 = (w'.answer q t).1 ∧ R (w.answer q s).2 (w'.answer q t).2
  waits : ∀ {s t} (lapse : Lapse), R s t →
    ∃ s' t', w.pass lapse s = some s' ∧ w'.pass lapse t = some t' ∧ R s' t'
  hears : ∀ {s t} (event : Stream.Event), R s t → ∃ t', w'.hear event t = some (true, t') ∧ R s t'
  today : timed → ∀ {s t}, R s t → w.today s = w'.today t
  instant : timed → ∀ {s t}, R s t → w.instant s = w'.instant t

theorem lockstep_replying (timed : Prop) (reply : Call → Reply) (signals : List Stream.Signal) :
    Lockstep timed (World.replying reply signals) (World.replying reply signals)
      fun _ _ => True where
  answers _ _ _ := ⟨rfl, trivial⟩
  waits _ _ := ⟨(), (), rfl, rfl, trivial⟩
  hears _ _ := ⟨(), rfl, trivial⟩
  today _ _ _ _ := rfl
  instant _ _ _ _ := rfl

/-- Scenes that two dialogues have come to abreast. -/
structure Abreast (timed : Prop) (R : σ → τ → Prop) (s : Scene σ) (t : Scene τ) : Prop where
  outside : R s.outside t.outside
  memory : timed → s.memory = t.memory

theorem Scene.asked_act (s : Scene σ) (a : Act) (outside : σ) :
    Scene.asked { s.act a with outside } = s.asked ++ a.question?.toList := by
  unfold Scene.asked Scene.act
  rw [List.filterMap_append]
  cases a <;> rfl

theorem Dialogue.Narrates.run {P : α → Prop} {d d' : Dialogue α} {w : World σ} {w' : World τ}
    {R : σ → τ → Prop} (h : Narrates timed P d d') (lockstep : Lockstep timed w w' R) {s : Scene σ}
    {t : Scene τ} (hs : Abreast timed R s t) :
    ∃ a asked s' t', d.run w s = (some a, s') ∧ d'.run w' t = (some a, t') ∧ P a ∧
      Abreast timed R s' t' ∧ s'.asked = s.asked ++ asked ∧ t'.asked = t.asked ++ asked := by
  induction h generalizing s t with
  | done ha => exact ⟨_, [], s, t, rfl, rfl, ha, hs, by simp, by simp⟩
  | @ask q next next' hq hn ih =>
      obtain ⟨harrival, houtside⟩ := lockstep.answers q hs.outside hq
      obtain ⟨a, asked, s', t', hd, hd', hP, habreast, hasked, hasked'⟩ :=
        ih (w.answer q s.outside).1
          (s := { s.act (.asked q (w.answer q s.outside).1) with
            outside := (w.answer q s.outside).2 })
          (t := { t.act (.asked q (w'.answer q t.outside).1) with
            outside := (w'.answer q t.outside).2 })
          ⟨houtside, hs.memory⟩
      rw [Scene.asked_act, List.append_assoc] at hasked hasked'
      refine ⟨a, q :: asked, s', t', hd, ?_, hP, habreast, hasked, hasked'⟩
      rw [harrival] at hd'
      exact hd'
  | @wait next next' lapse hn ih =>
      obtain ⟨outside, outside', hpass, hpass', hR⟩ := lockstep.waits lapse hs.outside
      obtain ⟨a, asked, s', t', hd, hd', hrest⟩ :=
        ih (s := { s with outside }) (t := { t with outside := outside' }) ⟨hR, hs.memory⟩
      refine ⟨a, asked, s', t', ?_, ?_, hrest⟩
      · simp only [Dialogue.run, hpass]
        exact hd
      · simp only [Dialogue.run, hpass']
        exact hd'
  | @tell next event next' hn ih =>
      obtain ⟨outside', hhear, hR⟩ := lockstep.hears event hs.outside
      obtain ⟨a, asked, s', t', hd, hd', hP, habreast, hasked, hasked'⟩ :=
        ih (s := s) (t := { t.act (.sent event true) with outside := outside' }) ⟨hR, hs.memory⟩
      rw [Scene.asked_act, List.append_assoc] at hasked'
      refine ⟨a, asked, s', t', hd, ?_, hP, habreast, hasked, hasked'⟩
      simp only [Dialogue.run, hhear]
      exact hd'
  | @read ht slot next next' hn ih =>
      have hmemory := hs.memory ht
      have hinstant := lockstep.instant ht hs.outside
      obtain ⟨a, asked, s', t', hd, hd', hrest⟩ := ih (s.memory.get? (w.instant s.outside) slot) hs
      refine ⟨a, asked, s', t', hd, ?_, hrest⟩
      rw [hmemory, hinstant] at hd'
      exact hd'
  | @store next next' slot value ht hn ih =>
      have hmemory := hs.memory ht
      have hinstant := lockstep.instant ht hs.outside
      obtain ⟨a, asked, s', t', hd, hd', hrest⟩ :=
        ih (s := { s with memory := s.memory.store (w.instant s.outside) slot value })
          (t := { t with memory := t.memory.store (w'.instant t.outside) slot value })
          ⟨hs.outside, fun _ => by simp only [hmemory, hinstant]⟩
      exact ⟨a, asked, s', t', hd, hd', hrest⟩
  | @now ht next next' hn ih =>
      have htoday := lockstep.today ht hs.outside
      obtain ⟨a, asked, s', t', hd, hd', hrest⟩ := ih (w.today s.outside) hs
      refine ⟨a, asked, s', t', hd, ?_, hrest⟩
      rw [htoday] at hd'
      exact hd'

end Advisor

import Advisor.Proofs.Dialogue.Course
import Advisor.Stream.Relay

namespace Advisor.Stream

open Dialogue

/-- Sends that hand a stream on: deltas, and last perhaps the usage. -/
inductive Relayed : List Act → Prop
  | nothing : Relayed []
  | usage (u : Json.Fields) (heard : Bool) : Relayed [.sent (.usage u usagePct) heard]
  | delta (text : String) (pct : Nat) (heard : Bool) (rest : Relayed acts) :
      Relayed (.sent (.delta text pct) heard :: acts)

def relayEvents (deltas : List (String × Nat)) (usage : Option Json.Fields) : List Event :=
  deltas.map (fun d => .delta d.1 d.2) ++ (usage.map (.usage · usagePct)).toList

theorem Relayed.events (h : Relayed acts) :
    ∃ deltas usage, acts.filterMap Act.heard? = relayEvents deltas usage := by
  induction h with
  | nothing => exact ⟨[], none, rfl⟩
  | usage u heard =>
      cases heard with
      | true => exact ⟨[], some u, rfl⟩
      | false => exact ⟨[], none, rfl⟩
  | delta text pct heard rest ih =>
      obtain ⟨deltas, usage, he⟩ := ih
      cases heard with
      | true => exact ⟨(text, pct) :: deltas, usage, by simp [Act.heard?, relayEvents, he]⟩
      | false =>
          refine ⟨deltas, usage, ?_⟩
          rw [List.filterMap_cons_none rfl]
          exact he

theorem Relayed.silent (h : Relayed acts) : acts.filterMap Act.question? = [] := by
  induction h with
  | nothing | usage => rfl
  | delta text pct heard rest ih => simpa [Act.question?] using ih

/-- Somebody was told something and did not hear it. -/
def Missed (acts : List Act) : Prop := ∃ event, .sent event false ∈ acts

theorem Missed.later (before : List Act) (h : Missed after) : Missed (before ++ after) := by
  obtain ⟨event, he⟩ := h
  exact ⟨event, List.mem_append_right before he⟩

variable {pace : Nat → Nat}

theorem course_deliver (h : Course (deliver steps).run acts r) :
    (∀ {rest}, Relayed rest → Relayed (acts ++ rest)) ∧
      (r = some (.error .cancelled) → Missed acts) := by
  induction steps generalizing acts with
  | nil =>
      obtain ⟨rfl, rfl⟩ := course_pure h
      exact ⟨id, by simp⟩
  | cons step steps ih =>
      cases step with
      | done => exact ih h
      | failed message =>
          obtain ⟨rfl, rfl⟩ := course_pure (a := Except.error _) h
          exact ⟨id, by simp⟩
      | delta text pct =>
          rcases Attempt.course_send_bind h with ⟨rest, rfl, hd⟩ | ⟨rfl, rfl⟩ | ⟨rfl, rfl⟩
          · obtain ⟨relayed, missed⟩ := ih hd
            exact ⟨fun hr => .delta text pct true (relayed hr), fun he => (missed he).later [_]⟩
          · exact ⟨.delta text pct false, fun _ => ⟨_, List.mem_singleton.2 rfl⟩⟩
          · exact ⟨id, by simp⟩

theorem course_deliver_bind {f : Unit → Attempt β} (h : Course (deliver steps >>= f).run acts r) :
    (∃ before after, acts = before ++ after ∧ (∀ {rest}, Relayed rest → Relayed (before ++ rest)) ∧
        Course (f ()).run after r) ∨
      (Relayed acts ∧ (r = some (.error .cancelled) → Missed acts)) := by
  rcases Attempt.course_bind h with ⟨_, before, after, rfl, hd, hf⟩ | ⟨e, rfl, hd⟩ | ⟨rfl, hd⟩
  · exact .inl ⟨before, after, rfl, (course_deliver hd).1, hf⟩
  · obtain ⟨relayed, missed⟩ := course_deliver hd
    exact .inr ⟨by simpa using relayed .nothing, fun he => missed (by cases he; rfl)⟩
  · exact .inr ⟨by simpa using (course_deliver hd).1 .nothing, by simp⟩

theorem course_conclude (h : Course (conclude a).run acts r) :
    Relayed acts ∧ (r = some (.error .cancelled) → Missed acts) := by
  rw [conclude] at h
  cases hu : a.usage with
  | none =>
      rw [hu] at h
      obtain ⟨rfl, rfl⟩ := course_pure (a := Except.ok _) h
      exact ⟨.nothing, by simp⟩
  | some usage =>
      rw [hu] at h
      rcases Attempt.course_send_bind h with ⟨rest, rfl, hp⟩ | ⟨rfl, rfl⟩ | ⟨rfl, rfl⟩
      · obtain ⟨rfl, rfl⟩ := course_pure (a := Except.ok _) hp
        exact ⟨.usage usage true, by simp⟩
      · exact ⟨.usage usage false, fun _ => ⟨_, List.mem_singleton.2 rfl⟩⟩
      · exact ⟨.nothing, by simp⟩

theorem course_relay (h : Course (relay pace a signals).run acts r) :
    Relayed acts ∧ (r = some (.error .cancelled) → .fault .cancelled ∈ signals ∨ Missed acts) := by
  -- the assembler changes with every signal, and what has been sent so far is a front part of `acts`
  induction signals generalizing a acts with
  | nil =>
      rw [relay] at h
      split at h
      · exact (course_conclude h).imp_right fun missed he => .inr (missed he)
      · rcases course_deliver_bind h with ⟨before, after, rfl, relayed, hc⟩ | ⟨relayed, missed⟩
        · obtain ⟨rest, missed⟩ := course_conclude hc
          exact ⟨relayed rest, fun he => .inr ((missed he).later before)⟩
        · exact ⟨relayed, fun he => .inr (missed he)⟩
  | cons signal signals ih =>
      unfold relay at h
      split at h
      · exact (course_conclude h).imp_right fun missed he => .inr (missed he)
      · cases signal with
        | fault why =>
            obtain ⟨rfl, rfl⟩ := course_pure (a := Except.error why) h
            exact ⟨.nothing, fun he => .inl (by cases he; simp)⟩
        | pause lapse =>
            rcases Attempt.course_lift_bind h with ⟨_, before, after, rfl, hp, hr⟩ | ⟨rfl, hp⟩
            · obtain ⟨rfl, _⟩ := course_pause hp
              exact (ih hr).imp_right fun called he => (called he).imp_left (List.mem_cons_of_mem _)
            · obtain ⟨rfl, _⟩ := course_pause hp
              exact ⟨.nothing, by simp⟩
        | line text =>
            rcases course_deliver_bind h with ⟨before, after, rfl, relayed, hr⟩ | ⟨relayed, missed⟩
            · obtain ⟨rest, called⟩ := ih hr
              refine ⟨relayed rest, fun he => ?_⟩
              exact (called he).imp (List.mem_cons_of_mem _) (·.later before)
            · exact ⟨relayed, fun he => .inr (missed he)⟩

/-- An answer that a stream is called off by. -/
def CallsOff (arrival : Arrival (List Signal)) : Prop :=
  arrival.result = .error .cancelled ∨
    ∃ signals, arrival.result = .ok signals ∧ .fault .cancelled ∈ signals

theorem course_relayFor {q : Call}
    (h : Course (Attempt.await (.stream q) >>= relayFor call).run acts r) :
    ∃ arrival told, acts = .asked (.stream q) arrival :: told ∧ Relayed told ∧
      (r = some (.error .cancelled) → CallsOff arrival ∨ Missed told) := by
  rcases Attempt.course_bind h with ⟨signals, before, told, rfl, ha, hr⟩ | ⟨e, rfl, ha⟩ | ⟨rfl, ha⟩
  · obtain ⟨arrival, rfl, he⟩ := Attempt.course_await ha
    obtain ⟨relayed, called⟩ := course_relay hr
    have hresult : arrival.result = .ok signals := by simpa [eq_comm] using he
    refine ⟨arrival, told, rfl, relayed, fun he => (called he).imp_left fun hc => ?_⟩
    exact .inr ⟨signals, hresult, hc⟩
  · obtain ⟨arrival, rfl, he⟩ := Attempt.course_await ha
    have hresult : arrival.result = .error e := by simpa [eq_comm] using he
    exact ⟨arrival, [], rfl, .nothing, fun he => .inl (.inl (by cases he; exact hresult))⟩
  · obtain ⟨arrival, rfl, _⟩ := Attempt.course_await ha
    exact ⟨arrival, [], rfl, .nothing, by simp⟩

end Advisor.Stream

import Advisor.Proofs.Dialogue.Asking

namespace Advisor

open Dialogue

namespace Attempt

/-- Whatever an attempt succeeds with has a property. It need not succeed. -/
def Yields (x : Attempt α) (P : α → Prop) : Prop :=
  ∀ acts a, Course x.run acts (some (.ok a)) → P a

theorem yields_pure {P : α → Prop} (h : P a) : Yields (pure a : Attempt α) P := by
  intro acts b hc
  obtain ⟨_, he⟩ := course_pure (a := Except.ok a) hc
  cases he
  exact h

theorem Yields.bind {P : α → Prop} {Q : β → Prop} {x : Attempt α} {f : α → Attempt β}
    (hx : x.Yields P) (hf : ∀ a, P a → (f a).Yields Q) : (x >>= f).Yields Q := by
  intro acts b hc
  obtain ⟨a, before, after, _, hxa, hfa⟩ := course_bind_ok hc
  exact hf a (hx before a hxa) after b hfa

theorem yields_bind {Q : β → Prop} {x : Attempt α} {f : α → Attempt β}
    (hf : ∀ a, (f a).Yields Q) : (x >>= f).Yields Q :=
  Yields.bind (P := fun _ => True) (fun _ _ _ => trivial) fun a _ => hf a

theorem yields_lift {P : α → Prop} {d : Dialogue α}
    (h : ∀ acts a, Course d acts (some a) → P a) : Yields (ExceptT.lift d) P := by
  intro acts a hc
  rcases course_lift hc with ⟨b, he, hd⟩ | ⟨he, _⟩
  · cases he
    exact h acts a hd
  · cases he

theorem Yields.of_run {P : α → Prop} {x : Attempt α} (h : x.Yields P) {w : World σ} {s t : Scene σ}
    (hrun : x.run.run w s = (some (.ok a), t)) : P a := by
  obtain ⟨acts, _, hcourse, _⟩ := run_course w x.run s
  rw [hrun] at hcourse
  exact h acts a hcourse

/-- Whatever an attempt does has a property. -/
def Does (x : Attempt α) (P : Act → Prop) : Prop :=
  ∀ acts r, Course x.run acts r → ∀ a ∈ acts, P a

variable {P : Act → Prop}

theorem does_pure (a : α) : (pure a : Attempt α).Does P := by
  intro acts r hc
  obtain ⟨rfl, _⟩ := course_pure (a := Except.ok a) hc
  simp

theorem Does.bind {x : Attempt α} {f : α → Attempt β} (hx : x.Does P) (hf : ∀ a, (f a).Does P) :
    (x >>= f).Does P := by
  intro acts r hc
  rcases course_bind hc with ⟨a, before, after, rfl, hxa, hfa⟩ | ⟨e, _, hxe⟩ | ⟨_, hxn⟩
  · intro act hact
    rcases List.mem_append.1 hact with hact | hact
    · exact hx _ _ hxa act hact
    · exact hf a _ _ hfa act hact
  · exact hx _ _ hxe
  · exact hx _ _ hxn

theorem does_lift {kind : Question → Prop} {d : Dialogue α} (hd : d.Asks kind)
    (hP : ∀ q arrival, kind q → P (.asked q arrival)) : Does (ExceptT.lift d) P := by
  intro acts r hc a ha
  obtain ⟨q, arrival, rfl, hq⟩ := hd.course_lift hc a ha
  exact hP q arrival hq

theorem does_send (hP : ∀ heard, P (.sent event heard)) : (send event).Does P := by
  intro acts r hc
  rcases course_send hc with ⟨rfl, _⟩ | ⟨rfl, _⟩ | ⟨rfl, _⟩
  · simpa using hP true
  · simpa using hP false
  · simp

theorem exists_of_run (holds : α → Bool) {x : Attempt α} {w : World σ} {s : Scene σ}
    (h : ((x.run.run w s).1.bind Except.toOption).any holds = true) :
    ∃ a t, x.run.run w s = (some (.ok a), t) ∧ holds a := by
  obtain ⟨result, t, hrun⟩ : ∃ result t, x.run.run w s = (result, t) := ⟨_, _, rfl⟩
  rw [hrun] at h
  match result, h with
  | some (.ok a), h => exact ⟨a, t, hrun, h⟩

end Attempt

end Advisor

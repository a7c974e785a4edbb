import Advisor.Proofs.Consultation.Narration

namespace Advisor

open Dialogue Advisor.Stream

theorem Stream.missed_append {before after : List Act} :
    Missed (before ++ after) ↔ Missed before ∨ Missed after := by
  simp [Missed, exists_or]

theorem Stream.Undisturbed.earlier {before after : List Act} (h : Undisturbed (before ++ after)) :
    Undisturbed before where
  heard hm := h.heard (missed_append.2 (.inl hm))
  kept call arrival ha := h.kept call arrival (List.mem_append_left after ha)

/-- Of the acts only the last was missed. -/
def LeftAtLast (acts : List Act) : Prop :=
  ∃ before event, acts = before ++ [.sent event false] ∧ ¬ Missed before

theorem LeftAtLast.later {before after : List Act} (hb : ¬ Missed before) (h : LeftAtLast after) :
    LeftAtLast (before ++ after) := by
  obtain ⟨first, event, rfl, hfirst⟩ := h
  refine ⟨before ++ first, event, by rw [List.append_assoc], ?_⟩
  rw [missed_append]
  rintro (hm | hm)
  · exact hb hm
  · exact hfirst hm

theorem LeftAtLast.eq_nil {acts before after : List Act} (h : LeftAtLast acts)
    (hsplit : acts = before ++ .sent event false :: after) : after = [] := by
  obtain ⟨first, event', rfl, hfirst⟩ := h
  rcases List.eq_nil_or_concat after with hnil | ⟨rest, last, rfl⟩
  · exact hnil
  · rw [List.concat_eq_append, ← List.cons_append, ← List.append_assoc] at hsplit
    obtain ⟨hfront, _⟩ := List.append_inj' hsplit rfl
    refine absurd ⟨event, ?_⟩ hfirst
    rw [hfront]
    simp

namespace Attempt

/-- An attempt that is over, and cancelled, as soon as it is not heard. -/
def Heeds (x : Attempt α) : Prop :=
  ∀ acts r, Course x.run acts r →
    ¬ Missed acts ∨ LeftAtLast acts ∧ r = some (.error .cancelled)

/-- An attempt that nothing cancels but a disturbance. -/
def Persists (x : Attempt α) : Prop :=
  ∀ acts, Course x.run acts (some (.error .cancelled)) → ¬ Undisturbed acts

theorem heeds_pure (a : Except Failure α) : Heeds (ExceptT.mk (pure a)) := by
  intro acts r hc
  obtain ⟨rfl, _⟩ := course_pure (a := a) hc
  exact .inl (by simp [Missed])

theorem Heeds.bind {x : Attempt α} {f : α → Attempt β} (hx : x.Heeds) (hf : ∀ a, (f a).Heeds) :
    (x >>= f).Heeds := by
  intro acts r hc
  rcases course_bind hc with ⟨a, before, after, rfl, hxa, hfa⟩ | ⟨e, rfl, hxe⟩ | ⟨rfl, hxn⟩
  · have hbefore : ¬ Missed before := by
      rcases hx _ _ hxa with hheard | ⟨_, he⟩
      · exact hheard
      · cases he
    rcases hf a _ _ hfa with hheard | ⟨hlast, hr⟩
    · rw [missed_append]
      exact .inl fun hm => hm.elim hbefore hheard
    · exact .inr ⟨hlast.later hbefore, hr⟩
  · refine (hx _ _ hxe).imp_right fun ⟨hlast, he⟩ => ⟨hlast, ?_⟩
    cases he
    rfl
  · refine (hx _ _ hxn).imp_right fun ⟨_, he⟩ => ?_
    cases he

theorem heeds_lift {kind : Question → Prop} {d : Dialogue α} (hd : d.Asks kind) :
    Heeds (ExceptT.lift d) := by
  intro acts r hc
  refine .inl ?_
  rintro ⟨event, hmem⟩
  obtain ⟨_, _, he, _⟩ := hd.course_lift hc _ hmem
  cases he

theorem heeds_await (q : Question) : (await q).Heeds := by
  intro acts r hc
  obtain ⟨arrival, rfl, _⟩ := course_await hc
  exact .inl (by simp [Missed])

theorem heeds_send (event : Event) : (send event).Heeds := by
  intro acts r hc
  rcases course_send hc with ⟨rfl, _⟩ | ⟨rfl, rfl⟩ | ⟨rfl, _⟩
  · exact .inl (by simp [Missed])
  · exact .inr ⟨⟨[], event, rfl, by simp [Missed]⟩, rfl⟩
  · exact .inl (by simp [Missed])

theorem Heeds.within {x : Attempt α} (hx : x.Heeds) (limitMs : Nat) :
    (Attempt.within limitMs x).Heeds := by
  intro acts r hc
  rcases course_within hc with ⟨result, rfl, hxr⟩ | ⟨_, hxn⟩
  · exact hx _ _ hxr
  · refine (hx _ _ hxn).imp_right fun ⟨_, he⟩ => ?_
    cases he

theorem persists_pure (a : α) : Persists (pure a : Attempt α) := by
  intro acts hc
  obtain ⟨_, he⟩ := course_pure (a := Except.ok a) hc
  cases he

theorem Persists.bind {x : Attempt α} {f : α → Attempt β} (hx : x.Persists)
    (hf : ∀ a, (f a).Persists) : (x >>= f).Persists := by
  intro acts hc hu
  rcases course_bind hc with ⟨a, before, after, rfl, _, hfa⟩ | ⟨e, he, hxe⟩ | ⟨he, _⟩
  · exact hf a _ hfa hu.later
  · cases he
    exact hx _ hxe hu
  · cases he

theorem persists_lift (d : Dialogue α) : Persists (ExceptT.lift d) := by
  intro acts hc
  rcases course_lift hc with ⟨_, he, _⟩ | ⟨he, _⟩ <;> cases he

theorem persists_send (event : Event) : (send event).Persists := by
  intro acts hc hu
  rcases course_send hc with ⟨_, he⟩ | ⟨rfl, _⟩ | ⟨_, he⟩
  · cases he
  · exact hu.heard ⟨event, List.mem_singleton.2 rfl⟩
  · cases he

end Attempt

namespace Stream

variable {pace : Nat → Nat} {a : Assembler}

theorem deliver_heeds (steps : List Step) : (deliver steps).Heeds := by
  induction steps with
  | nil => exact Attempt.heeds_pure (.ok ())
  | cons step steps ih =>
      cases step with
      | delta text pct => exact (Attempt.heeds_send _).bind fun _ => ih
      | failed message => exact Attempt.heeds_pure (.error _)
      | done => exact ih

theorem conclude_heeds (a : Assembler) : (conclude a).Heeds := by
  unfold conclude
  cases a.usage with
  | none => exact Attempt.heeds_pure (.ok a.reply)
  | some usage => exact (Attempt.heeds_send _).bind fun _ => Attempt.heeds_pure (.ok a.reply)

theorem relay_heeds (a : Assembler) (signals : List Signal) : (relay pace a signals).Heeds := by
  induction signals generalizing a with
  | nil =>
      unfold relay
      split
      · exact conclude_heeds a
      · exact (deliver_heeds _).bind fun _ => conclude_heeds _
  | cons signal signals ih =>
      unfold relay
      split
      · exact conclude_heeds a
      · cases signal with
        | line text => exact (deliver_heeds _).bind fun _ => ih _
        | fault why => exact Attempt.heeds_pure (.error why)
        | pause lapse =>
            have hpause : (Dialogue.pause lapse).Asks fun _ => False := asks_pause lapse
            exact (Attempt.heeds_lift hpause).bind fun _ => ih a

end Stream

namespace Consultation

variable {p : Practice}

theorem generate_heeds (p : Practice) (call : Call) : (generate p true call).Heeds := by
  refine Attempt.Heeds.within ?_ p.timeouts.stream
  exact (Attempt.heeds_await _).bind fun signals => relay_heeds _ signals

theorem generate_persists (p : Practice) (call : Call) : (generate p true call).Persists := by
  intro acts hc hu
  obtain ⟨arrival, told, rfl, _, called⟩ := course_generate_listening hc
  rcases called rfl with hoff | hmissed
  · exact hu.kept _ arrival (List.mem_cons_self ..) hoff
  · exact hu.heard (hmissed.later [_])

theorem heeds_composes : Composes true (fun _ => True) fun _ x => x.Heeds where
  pure a := Attempt.heeds_pure (.ok a)
  bind hx hf := hx.bind hf
  lift hd := Attempt.heeds_lift hd
  report _ := Attempt.heeds_send _

theorem persists_composes : Composes true (fun _ => True) fun _ x => x.Persists where
  pure a := Attempt.persists_pure a
  bind hx hf := hx.bind hf
  lift _ := Attempt.persists_lift _
  report _ := Attempt.persists_send _

theorem answer_heeds (p : Practice) (turn : Turn) : (answer p true turn).Heeds :=
  heeds_composes.answer (generate_heeds p) turn

theorem answer_persists (p : Practice) (turn : Turn) : (answer p true turn).Persists :=
  persists_composes.answer (generate_persists p) turn

theorem stream_heeds (p : Practice) (turn : Turn) : (stream p turn).Heeds := by
  intro acts r hc
  rcases course_stream hc with ⟨result, before, after, rfl, ha, hend⟩ | ⟨rfl, ha⟩
  · rcases hend with ⟨rfl, rfl, rfl⟩ | ⟨event, hevent, hs⟩
    · rw [List.append_nil]
      exact (answer_heeds p turn _ _ ha).imp_right fun ⟨hlast, _⟩ => ⟨hlast, rfl⟩
    · have hbefore : ¬ Missed before := by
        rcases answer_heeds p turn _ _ ha with hheard | ⟨_, he⟩
        · exact hheard
        · cases he
          cases hevent
      rcases Attempt.heeds_send event _ _ hs with hheard | ⟨hlast, hr⟩
      · rw [missed_append]
        exact .inl fun hm => hm.elim hbefore hheard
      · exact .inr ⟨hlast.later hbefore, hr⟩
  · refine (answer_heeds p turn _ _ ha).imp_right fun ⟨_, he⟩ => ?_
    cases he

theorem stream_succeeds (hu : Undisturbed acts)
    (hc : Course (stream p turn).run acts (some result)) : result = .ok () := by
  rcases course_stream hc with ⟨made, before, after, rfl, ha, hend⟩ | ⟨he, _⟩
  · rcases hend with ⟨rfl, _, _⟩ | ⟨event, _, hs⟩
    · exact absurd hu.earlier (answer_persists p turn _ ha)
    · rcases Attempt.course_send hs with ⟨_, he⟩ | ⟨rfl, _⟩ | ⟨_, he⟩
      · exact Option.some.inj he
      · exact absurd ⟨event, List.mem_singleton.2 rfl⟩ hu.later.heard
      · cases he
  · cases he

/-- What a client does not hear is the last that is done for it: nothing is told or asked any more. While it
hears everything, and no stream is called off, the turn is told to its end. -/
theorem unheard_last (w : World σ) (p : Practice) (turn : Turn) (s : Scene σ) :
    ∃ acts, ((stream p turn).run.run w s).2.acts = s.acts ++ acts ∧
      (∀ before event after, acts = before ++ .sent event false :: after →
        after = [] ∧ ((stream p turn).run.run w s).1 = some (.error .cancelled)) ∧
      (Undisturbed acts → ¬ w.Abandons → ((stream p turn).run.run w s).1 = some (.ok ())) := by
  obtain ⟨acts, hacts, hcourse, _⟩ := run_course w (stream p turn).run s
  refine ⟨acts, hacts, ?_, ?_⟩
  · intro before event after hsplit
    rcases stream_heeds p turn _ _ hcourse with hheard | ⟨hlast, hr⟩
    · refine absurd ⟨event, ?_⟩ hheard
      rw [hsplit]
      simp
    · exact ⟨hlast.eq_nil hsplit, hr⟩
  · intro hu hstays
    cases hresult : ((stream p turn).run.run w s).1 with
    | none => exact absurd (run_abandoned hresult) hstays
    | some result =>
        rw [hresult] at hcourse
        rw [stream_succeeds hu hcourse]

def mute : World Unit := .replying (fun _ => ⟨"", "", "", []⟩) [.line "data: [DONE]"]

theorem mute_attended : mute.Attended := World.replying_attended ..

theorem mute_keepsStreams : mute.KeepsStreams := by
  rintro call s (he | ⟨signals, he, hfault⟩)
  · cases he
  · cases he
    simp at hfault

def misses (acts : List Act) : Bool :=
  acts.any fun
    | .sent _ heard => !heard
    | .asked _ _ => false

theorem missed_of_misses (h : misses acts) : Missed acts := by
  obtain ⟨act, hmem, hact⟩ := List.any_eq_true.1 h
  cases act with
  | asked q arrival => cases hact
  | sent event heard =>
      cases heard with
      | true => cases hact
      | false => exact ⟨event, hmem⟩

theorem unheard_last_early :
    (∃ before event s, (stream .plain (.plain "hi")).run.run mute.leaving ⟨((), 3), .empty, []⟩ =
      (some (.error .cancelled), s) ∧ s.acts = before ++ [.sent event false]) ∧
    ∃ s, (stream .plain (.plain "hi")).run.run mute ⟨(), .empty, []⟩ = (some (.ok ()), s) := by
  constructor
  · obtain ⟨acts, hacts, hleaves, _⟩ :=
      unheard_last mute.leaving .plain (.plain "hi") ⟨((), 3), .empty, []⟩
    have hmissed : misses ((stream .plain (.plain "hi")).run.run mute.leaving
        ⟨((), 3), .empty, []⟩).2.acts := by decide +kernel
    generalize (stream .plain (.plain "hi")).run.run mute.leaving ⟨((), 3), .empty, []⟩ = run
      at hacts hleaves hmissed
    obtain ⟨result, s⟩ := run
    obtain ⟨event, hmem⟩ := missed_of_misses hmissed
    obtain ⟨before, after, hsplit⟩ := List.append_of_mem hmem
    obtain ⟨rfl, rfl⟩ := hleaves before event after (hacts.symm.trans hsplit)
    exact ⟨before, event, s, rfl, hsplit⟩
  · obtain ⟨acts, hacts, _, hstays⟩ :=
      unheard_last mute .plain (.plain "hi") ⟨(), .empty, []⟩
    obtain ⟨result, acts', s, hrun, hacts', _, hu⟩ :=
      mute_attended.run mute_keepsStreams (stream .plain (.plain "hi")).run ⟨(), .empty, []⟩
    rw [hrun] at hacts hstays
    obtain rfl : acts' = acts := List.append_cancel_left (hacts'.symm.trans hacts)
    exact ⟨s, by rw [hrun, ← hstays hu mute_attended.not_abandons]⟩

end Consultation

end Advisor

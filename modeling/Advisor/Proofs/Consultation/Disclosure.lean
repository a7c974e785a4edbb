import Advisor.Proofs.Consultation.Narration
import Advisor.Proofs.Consultation.Validation
import Advisor.Proofs.Text.Occurrence

namespace Advisor

open Dialogue

namespace Diagnostic

/-- A marker stands in the text when every letter is taken in lower case. -/
def Marked (text : String) : Prop :=
  ∃ marker ∈ markers, marker.toList <:+: text.toList.flatMap Text.lowerChar

theorem markers_noSigma : ∀ marker ∈ markers, Text.NoSigma marker.toList := by
  decide +kernel

/-- The lower-case form of a letter hangs on what surrounds it for a sigma only, and no marker has one. -/
theorem leaks_iff {text : String} : leaks text ↔ Marked text := by
  rw [leaks, Text.containsAny, List.any_eq_true]
  constructor
  · rintro ⟨marker, hmarker, hfound⟩
    exact ⟨marker, hmarker, (Text.contains_lower_iff (markers_noSigma marker hmarker)).1 hfound⟩
  · rintro ⟨marker, hmarker, hfound⟩
    exact ⟨marker, hmarker, (Text.contains_lower_iff (markers_noSigma marker hmarker)).2 hfound⟩

theorem markers_shape : ∀ marker ∈ markers,
    '_' ∈ marker.toList ∧ ' ' ∉ marker.toList ∧ '.' ∉ marker.toList := by
  decide +kernel

theorem unmarked_of_no_underscore {cs : List Char} (hmarker : marker ∈ markers) (h : '_' ∉ cs) :
    ¬ marker.toList <:+: cs.flatMap Text.lowerChar := by
  intro hfound
  obtain ⟨c, hc, hform⟩ := List.mem_flatMap.1 (hfound.subset (markers_shape marker hmarker).1)
  rw [Text.eq_underscore_of_mem_lowerChar hform] at hc
  exact h hc

theorem Marked.between {opening fields closing : String}
    (h : Marked (opening ++ fields ++ closing))
    (hopening : '_' ∉ opening.toList) (hspace : opening.toList.getLast? = some ' ')
    (hclosing : '_' ∉ closing.toList) (hstop : closing.toList.head? = some '.') :
    Marked fields := by
  obtain ⟨marker, hmarker, hfound⟩ := h
  obtain ⟨_, hnospace, hnostop⟩ := markers_shape marker hmarker
  obtain ⟨before, hbefore⟩ := List.getLast?_eq_some_iff.1 hspace
  obtain ⟨after, hafter⟩ := List.head?_eq_some_iff.1 hstop
  rw [hbefore] at hopening
  rw [hafter] at hclosing
  have htext : (opening ++ fields ++ closing).toList.flatMap Text.lowerChar =
      before.flatMap Text.lowerChar ++
        ' ' :: (fields.toList.flatMap Text.lowerChar ++ '.' :: after.flatMap Text.lowerChar) := by
    simp [hbefore, hafter, Text.lowerChar_space, Text.lowerChar_stop]
  rw [htext] at hfound
  refine ⟨marker, hmarker, ?_⟩
  rcases Text.infix_append_cons hnospace hfound with hfound | hfound
  · exact absurd hfound (unmarked_of_no_underscore hmarker fun h => hopening (by simp [h]))
  rcases Text.infix_append_cons hnostop hfound with hfound | hfound
  · exact hfound
  · exact absurd hfound (unmarked_of_no_underscore hmarker fun h => hclosing (by simp [h]))

end Diagnostic

namespace Answer

theorem refused_of_marked (checks : Rule.diagnosticLeak ∈ rules)
    (hmarked : Diagnostic.Marked answer) : refusal? rules intent answer ≠ none := by
  intro hpass
  have hrule := List.findSome?_eq_none_iff.1 hpass _ checks
  simp [Rule.diagnosticLeak, Diagnostic.leaks_iff.2 hmarked] at hrule

end Answer

namespace Preflight

theorem missing_unmarked (plan : Plan) (context : Scan.Context) :
    ¬ Diagnostic.Marked (", ".intercalate (missingFields plan context)) := by
  rw [← Diagnostic.leaks_iff, missingFields]
  split <;> split <;> decide +kernel

theorem refusal_eq (p : Preflight) (locale : Locale) : ∃ opening closing,
    p.refusal locale = opening ++ ", ".intercalate p.missing ++ closing ∧
      '_' ∉ opening.toList ∧ opening.toList.getLast? = some ' ' ∧
      '_' ∉ closing.toList ∧ closing.toList.head? = some '.' := by
  cases locale <;> exact ⟨_, _, rfl, by decide +kernel⟩

theorem refusal_unmarked (plan : Plan) (context : Scan.Context) (wanted : Bool) (locale : Locale) :
    ¬ Diagnostic.Marked ((check plan context wanted locale).refusal locale) := by
  intro hmarked
  obtain ⟨opening, closing, he, hopening, hspace, hclosing, hstop⟩ :=
    refusal_eq (check plan context wanted locale) locale
  rw [he] at hmarked
  exact missing_unmarked plan context (hmarked.between hopening hspace hclosing hstop)

end Preflight

namespace Consultation

variable {p : Practice} {listening : Bool}

/-- A response that shows a marker puts the question of its plan back, or says that it was refused. -/
def Owned (response : ChatResponse) : Prop :=
  Diagnostic.Marked response.answer →
    PutsBack response ∨ ∃ reason, "answer validation: " ++ reason ∈ response.warnings

theorem owned_of_vetted (checks : Answer.Rule.diagnosticLeak ∈ p.rules)
    (h : Vetted p.rules plan before response) : Owned response := by
  intro hmarked
  rcases h with ⟨hpass, _⟩ | ⟨reason, again, _, hwarnings⟩
  · exact absurd hpass (Answer.refused_of_marked checks hmarked)
  · refine .inr ⟨reason, ?_⟩
    rw [hwarnings]
    exact List.mem_append_right before (List.mem_cons_self ..)

theorem answer_owned (checks : Answer.Rule.diagnosticLeak ∈ p.rules) (turn : Turn) :
    (answer p listening turn).Yields Owned := by
  refine (brief_founded p listening turn).bind fun briefing hfounded => ?_
  cases briefing with
  | reply response =>
      refine Attempt.yields_pure fun hmarked => ?_
      rcases hfounded with hasks | ⟨plan, context, wanted, locale, hrefusal⟩
      · exact .inl hasks
      · rw [hrefusal] at hmarked
        exact absurd hmarked (Preflight.refusal_unmarked plan context wanted locale)
  | call d plan call =>
      intro acts response hc
      exact owned_of_vetted checks (answerByModel_yields d plan call acts response hc).2

theorem stream_results (h : Course (stream p turn).run acts r)
    (hsent : .sent (.result response pct) heard ∈ acts) :
    ∃ before, Course (answer p true turn).run before (some (.ok response)) := by
  obtain ⟨before, _, hanswer⟩ := course_stream_result h hsent
  exact ⟨before, hanswer⟩

/-- A marker comes to a user only in the question of a plan, or with a warning that the answer was
refused. So it is with every response, and with every one that a listening client hears. -/
theorem markers_owned (w : World σ) (checks : Answer.Rule.diagnosticLeak ∈ p.rules) (turn : Turn) :
    (∀ listening (s : Scene σ) response u,
      (answer p listening turn).run.run w s = (some (.ok response), u) → Owned response) ∧
    ∀ outside memory response pct,
      .result response pct ∈ ((stream p turn).run.run w ⟨outside, memory, []⟩).2.heard →
        Owned response := by
  constructor
  · intro listening s response u hrun
    exact (answer_owned checks turn).of_run hrun
  · intro outside memory response pct hheard
    obtain ⟨acts, hacts, hcourse, _⟩ := run_course w (stream p turn).run ⟨outside, memory, []⟩
    rw [Scene.heard, hacts, List.nil_append] at hheard
    obtain ⟨a, ha, hevent⟩ := List.mem_filterMap.1 hheard
    cases a with
    | asked q arrival => cases hevent
    | sent event heard =>
        cases heard with
        | false => cases hevent
        | true =>
            cases hevent
            obtain ⟨before, hanswer⟩ := stream_results hcourse ha
            exact answer_owned checks turn before response hanswer

def echoing : World Unit :=
  .replying (fun _ => echo)
    [.line "data: \x7b\"choices\":[\x7b\"delta\":\x7b\"content\":\"The CONTEXT_LEVEL is full.\"\x7d\x7d]\x7d",
      .line "data: [DONE]"]

def exposes (response : ChatResponse) : Bool :=
  Diagnostic.leaks response.answer && !response.trail.clarification

theorem Owned.warned (h : Owned response) (ht : exposes response) :
    ∃ reason, "answer validation: " ++ reason ∈ response.warnings := by
  obtain ⟨hleaks, hasks⟩ := Bool.and_eq_true_iff.1 ht
  refine (h (Diagnostic.leaks_iff.1 hleaks)).resolve_left fun hputs => ?_
  rw [hputs.1] at hasks
  cases hasks

theorem markers_owned_echoing :
    Answer.Rule.diagnosticLeak ∈ Practice.plain.rules ∧
    (∃ response u,
      (answer .plain false (.plain "hi")).run.run echoing ⟨(), .empty, []⟩ =
        (some (.ok response), u) ∧
      Diagnostic.Marked response.answer ∧
      ∃ reason, "answer validation: " ++ reason ∈ response.warnings) ∧
    ∃ response pct,
      .result response pct ∈
        ((stream .plain (.plain "hi")).run.run echoing ⟨(), .empty, []⟩).2.heard ∧
      Diagnostic.Marked response.answer ∧
      ∃ reason, "answer validation: " ++ reason ∈ response.warnings := by
  have checks : Answer.Rule.diagnosticLeak ∈ Practice.plain.rules := .tail _ (.head _)
  have howned := markers_owned echoing checks (.plain "hi")
  refine ⟨checks, ?_, ?_⟩
  · obtain ⟨response, u, hrun, hexposes⟩ := Attempt.exists_of_run exposes
      (x := answer .plain false (.plain "hi")) (w := echoing) (s := ⟨(), .empty, []⟩)
      (by decide +kernel)
    refine ⟨response, u, hrun, ?_, (howned.1 _ _ _ _ hrun).warned hexposes⟩
    exact Diagnostic.leaks_iff.1 (Bool.and_eq_true_iff.1 hexposes).1
  · have hheard : ((stream .plain (.plain "hi")).run.run echoing ⟨(), .empty, []⟩).2.heard.any
        (fun | .result response _ => exposes response | _ => false) := by decide +kernel
    obtain ⟨event, hmem, hexposes⟩ := List.any_eq_true.1 hheard
    match event, hexposes with
    | .result response pct, hexposes =>
        refine ⟨response, pct, hmem, ?_, (howned.2 _ _ _ _ hmem).warned hexposes⟩
        exact Diagnostic.leaks_iff.1 (Bool.and_eq_true_iff.1 hexposes).1

def probing : Reply :=
  ⟨"\x7b\"ask_clarification\":true,\"clarification\":\"Which context_level do you mean?\"\x7d",
    "model", "", []⟩

theorem question_unchecked :
    ∃ response u,
      (answer .plain false (.plain "what is a spread?")).run.run
        (World.replying (fun _ => probing) []) ⟨(), .empty, []⟩ = (some (.ok response), u) ∧
      Diagnostic.Marked response.answer ∧
      ¬ ∃ reason, "answer validation: " ++ reason ∈ response.warnings := by
  obtain ⟨response, u, hrun, hholds⟩ := Attempt.exists_of_run
    (fun response => Diagnostic.leaks response.answer && response.warnings.isEmpty)
    (x := answer .plain false (.plain "what is a spread?"))
    (w := World.replying (fun _ => probing) []) (s := ⟨(), .empty, []⟩) (by decide +kernel)
  obtain ⟨hleaks, hquiet⟩ := Bool.and_eq_true_iff.1 hholds
  refine ⟨response, u, hrun, Diagnostic.leaks_iff.1 hleaks, ?_⟩
  rw [List.isEmpty_iff.1 hquiet]
  simp

end Consultation

end Advisor

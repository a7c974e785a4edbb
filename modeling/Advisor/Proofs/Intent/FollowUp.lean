import Advisor.Intent.Classification
import Mathlib.Data.List.DropRight

/-!
What the history has to say on an intent. It is asked after a short message that no other vocabulary
decides, and only whether one of the assistant's last four turns gave advice.
-/

namespace Advisor.Intent

def said (history : List Message) : List String :=
  (history.filter (·.role == .assistant)).map (·.content)

/-- A text gives advice when it speaks of trades or risk. -/
def Advises (content : String) : Prop :=
  Vocabulary.advice.occursIn (Text.lower content)

/-- A short message that goes on from what was said before. -/
structure FollowsUp (message : String) : Prop where
  short : Text.runeCount (Text.lower (Text.trim message)) ≤ 80
  asks : Vocabulary.followUp.occursIn (Text.lower (Text.trim message))

section Verdict

/-- What a message may have of its history: nothing, or the intent of the advice it follows. -/
def Verdict (message : String) (intent : List Message → Intent) : Prop :=
  (∃ settled, ∀ history, intent history = settled) ∨
    (FollowsUp message ∧
      ∀ history, intent history = if recentAdvice history then .tradingAnalysis else .general)

variable {message : String} {intent : List Message → Intent}

theorem Verdict.settled (settled : Intent) : Verdict message fun _ => settled :=
  .inl ⟨settled, fun _ => rfl⟩

theorem Verdict.unless {matched : Prop} [Decidable matched] (settled : Intent)
    (h : Verdict message intent) :
    Verdict message fun history => if matched then settled else intent history := by
  by_cases hmatched : matched
  · simpa only [if_pos hmatched] using .settled settled
  · simpa only [if_neg hmatched] using h

theorem verdict_followUp : Verdict message fun history =>
    if decide (Text.runeCount (Text.lower (Text.trim message)) ≤ followUpMaxRunes) &&
      Vocabulary.followUp.occursIn (Text.lower (Text.trim message)) && recentAdvice history
    then .tradingAnalysis else .general := by
  by_cases hfollows : FollowsUp message
  · refine .inr ⟨hfollows, fun history => ?_⟩
    simp only [followUpMaxRunes, hfollows.short, hfollows.asks, decide_true, Bool.true_and]
  · refine .inl ⟨.general, fun history => if_neg fun h => hfollows ?_⟩
    simp only [Bool.and_eq_true, decide_eq_true_eq] at h
    exact ⟨h.1.1, h.1.2⟩

theorem verdict_classify (message : String) : Verdict message (classify message) := by
  change Verdict message fun history => classify message history
  simp only [classify]
  exact .unless _ <| .unless _ <| .unless _ <| .unless _ <| .unless _ <| .unless _ verdict_followUp

end Verdict

theorem assistantTurns_eq (history : List Message) :
    assistantTurns history = (said history).reverse := by
  rw [assistantTurns, said, List.filter_reverse, List.map_reverse]

theorem recentAdvice_iff {history : List Message} :
    recentAdvice history ↔ ∃ content ∈ (said history).rtake 4, Advises content := by
  rw [recentAdvice, assistantTurns_eq, List.rtake_eq_reverse_take_reverse, List.any_eq_true]
  simp only [List.mem_reverse]
  rfl

theorem recentAdvice_congr {history history' : List Message}
    (h : (said history).rtake 4 = (said history').rtake 4) :
    recentAdvice history = recentAdvice history' := by
  rw [Bool.eq_iff_iff, recentAdvice_iff, recentAdvice_iff, h]

/-- Two histories give a message two intents only when it is short, and one of them has advice that it can
follow. Histories in which the assistant's last four turns say the same give it one intent, whatever else
is in them. -/
theorem history_tells_of_advice (message : String) (history history' : List Message) :
    (classify message history ≠ classify message history' →
      ((classify message history = .general ∧ classify message history' = .tradingAnalysis) ∨
        (classify message history = .tradingAnalysis ∧ classify message history' = .general)) ∧
      Text.runeCount (Text.lower (Text.trim message)) ≤ 80) ∧
    ((said history).rtake 4 = (said history').rtake 4 →
      classify message history = classify message history') := by
  rcases verdict_classify message with ⟨intent, hsettled⟩ | ⟨hfollows, hintent⟩
  · rw [hsettled, hsettled]
    exact ⟨fun hne => absurd rfl hne, fun _ => rfl⟩
  · rw [hintent, hintent]
    refine ⟨fun hne => ⟨?_, hfollows.short⟩, fun hsaid => by rw [recentAdvice_congr hsaid]⟩
    cases hadvice : recentAdvice history <;> cases hadvice' : recentAdvice history' <;>
      simp_all

def advised : List Message :=
  [⟨.user, "what now?"⟩, ⟨.assistant, "Buy the first row."⟩]

def forgotten : List Message :=
  advised ++ .replicate 4 ⟨.assistant, "Anything else?"⟩

theorem why_follows_advice :
    classify "why?" advised ≠ classify "why?" forgotten ∧
      ((classify "why?" advised = .general ∧ classify "why?" forgotten = .tradingAnalysis) ∨
        (classify "why?" advised = .tradingAnalysis ∧ classify "why?" forgotten = .general)) ∧
      (said forgotten).rtake 4 = (said (forgotten.drop 2)).rtake 4 ∧
      classify "why?" forgotten = classify "why?" (forgotten.drop 2) := by
  have hne : classify "why?" advised ≠ classify "why?" forgotten := by decide +kernel
  have hsaid : (said forgotten).rtake 4 = (said (forgotten.drop 2)).rtake 4 := by decide +kernel
  exact ⟨hne, ((history_tells_of_advice _ _ _).1 hne).1, hsaid,
    (history_tells_of_advice _ _ _).2 hsaid⟩

end Advisor.Intent

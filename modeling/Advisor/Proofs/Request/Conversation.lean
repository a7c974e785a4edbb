import Advisor.Proofs.Prompt.Bounds
import Advisor.Proofs.Text.Casing
import Mathlib.Data.List.DropRight

/-!
What is kept of a conversation: the newest of the messages that count. It may be taken in at once or part
by part, and nothing that is kept of the assistant's words shows a marker.
-/

namespace Advisor

instance (text : String) : Decidable (Diagnostic.Marked text) :=
  decidable_of_iff _ Diagnostic.leaks_iff

namespace History

/-- Who a message says is speaking, in any letter case and with white space around it. -/
def Speaks (m : RawMessage) : Role → Prop
  | .system => False
  | .user => Text.Spells "user" (Text.trim m.role)
  | .assistant => Text.Spells "assistant" (Text.trim m.role)

instance (m : RawMessage) (role : Role) : Decidable (Speaks m role) :=
  match role with
  | .system => inferInstanceAs (Decidable False)
  | .user | .assistant => inferInstanceAs (Decidable (Text.Spells _ _))

/-- What is kept of the content of a message. -/
def said (m : RawMessage) : String := Text.truncate (Text.trim m.content) 4000

/-- A message counts when the user or the assistant says something in it. What is kept of the
assistant's words must not show a marker. -/
structure Counts (m : RawMessage) : Prop where
  speaker : Speaks m .user ∨ Speaks m .assistant
  notBlank : Text.trim m.content ≠ ""
  unmarked : Speaks m .assistant → ¬ Diagnostic.Marked (said m)

instance (m : RawMessage) : Decidable (Counts m) :=
  decidable_of_iff ((Speaks m .user ∨ Speaks m .assistant) ∧ Text.trim m.content ≠ "" ∧
      (Speaks m .assistant → ¬ Diagnostic.Marked (said m)))
    ⟨fun h => ⟨h.1, h.2.1, h.2.2⟩, fun h => ⟨h.speaker, h.notBlank, h.unmarked⟩⟩

/-- The turn that a message becomes. -/
structure Becomes (m : RawMessage) (turn : Message) : Prop where
  role : Speaks m turn.role
  content : turn.content = said m

theorem lower_eq_user {s : String} : Text.lower s = "user" ↔ Text.Spells "user" s :=
  Text.lower_eq_iff (by decide +kernel)

theorem lower_eq_assistant {s : String} : Text.lower s = "assistant" ↔ Text.Spells "assistant" s :=
  Text.lower_eq_iff (by decide +kernel)

theorem speaker?_eq_some {m : RawMessage} {role : Role} :
    speaker? m.role = some role ↔ Speaks m role := by
  unfold speaker?
  cases role with
  | system => split <;> simp [Speaks]
  | user =>
      rw [Speaks, ← lower_eq_user]
      split <;> simp_all
  | assistant =>
      rw [Speaks, ← lower_eq_assistant]
      split <;> simp_all

theorem Speaks.unique {m : RawMessage} {role role' : Role} (h : Speaks m role)
    (h' : Speaks m role') : role = role' :=
  Option.some.inj ((speaker?_eq_some.2 h).symm.trans (speaker?_eq_some.2 h'))

theorem Speaks.counts_iff {m : RawMessage} {role : Role} (h : Speaks m role) :
    Counts m ↔ Text.trim m.content ≠ "" ∧ (role = .assistant → ¬ Diagnostic.Marked (said m)) := by
  constructor
  · intro hcounts
    exact ⟨hcounts.notBlank, fun hrole => hcounts.unmarked (hrole ▸ h)⟩
  · rintro ⟨hnotBlank, hunmarked⟩
    refine ⟨?_, hnotBlank, fun hassistant => hunmarked (h.unique hassistant)⟩
    cases role with
    | system => exact h.elim
    | user => exact .inl h
    | assistant => exact .inr h

theorem Speaks.admit?_eq {m : RawMessage} {role : Role} (h : Speaks m role) :
    admit? m = if Counts m then some ⟨role, said m⟩ else none := by
  have hdropped : ((said m).isEmpty || (role == .assistant && Diagnostic.leaks (said m))) = true ↔
      ¬ Counts m := by
    rw [h.counts_iff, Bool.or_eq_true, Bool.and_eq_true, said, Text.isEmpty_truncate (by decide),
      String.isEmpty_iff, Diagnostic.leaks_iff, beq_iff_eq, not_and_or, not_ne_iff, Classical.not_imp,
      not_not]
  rw [admit?, Option.bind_eq_bind, speaker?_eq_some.2 h, Option.bind_some]
  by_cases hcounts : Counts m
  · rw [if_pos hcounts]
    exact if_neg fun hd => hdropped.1 hd hcounts
  · rw [if_neg hcounts]
    exact if_pos (hdropped.2 hcounts)

theorem admit?_eq_none {m : RawMessage} (h : ∀ role, ¬ Speaks m role) : admit? m = none := by
  rw [admit?, Option.bind_eq_bind, Option.bind_eq_none_iff]
  exact fun role hrole => absurd (speaker?_eq_some.1 hrole) (h role)

theorem admitted (m : RawMessage) :
    (∃ turn, Counts m ∧ Becomes m turn ∧ admit? m = some turn) ∨ (¬ Counts m ∧ admit? m = none) := by
  by_cases hspeaks : ∃ role, Speaks m role
  · obtain ⟨role, hrole⟩ := hspeaks
    rw [hrole.admit?_eq]
    by_cases hcounts : Counts m
    · exact .inl ⟨⟨role, said m⟩, hcounts, ⟨hrole, rfl⟩, if_pos hcounts⟩
    · exact .inr ⟨hcounts, if_neg hcounts⟩
  · rw [not_exists] at hspeaks
    exact .inr ⟨fun h => h.speaker.elim (hspeaks _) (hspeaks _), admit?_eq_none hspeaks⟩

theorem filterMap_admit? (raw : List RawMessage) :
    List.Forall₂ Becomes (raw.filter (Counts ·)) (raw.filterMap admit?) := by
  induction raw with
  | nil => exact .nil
  | cons m raw ih =>
      rcases admitted m with ⟨turn, hcounts, hturn, hadmit⟩ | ⟨hcounts, hadmit⟩
      · rw [List.filterMap_cons_some hadmit, List.filter_cons_of_pos (by simpa using hcounts)]
        exact .cons hturn ih
      · rw [List.filterMap_cons_none hadmit, List.filter_cons_of_neg (by simpa using hcounts)]
        exact ih

theorem newest_append (n : Nat) (ms ms' : List α) :
    newest n (ms ++ ms') = newest n (newest n ms ++ newest n ms') := by
  have hrtake (ms : List α) : newest n ms = (ms.reverse.take n).reverse :=
    List.rtake_eq_reverse_take_reverse ms n
  simp only [hrtake, List.reverse_append, List.reverse_reverse, List.take_append, List.take_take,
    List.length_take, List.length_reverse]
  have hleft : min (n - min n ms'.length) n = n - ms'.length := by omega
  rw [hleft, Nat.min_self]

theorem newest_forall₂ {R : α → β → Prop} {as : List α} {bs : List β} (h : List.Forall₂ R as bs)
    (n : Nat) : List.Forall₂ R (newest n as) (newest n bs) := by
  rw [newest, newest, h.length_eq]
  exact List.forall₂_drop _ h

theorem Becomes.unmarked {m : RawMessage} {turn : Message} (hcounts : Counts m)
    (h : Becomes m turn) (hrole : turn.role = .assistant) {front : String}
    (hfront : front.toList <+: turn.content.toList) : ¬ Diagnostic.Marked front := by
  intro hmarked
  rw [h.content] at hfront
  exact hcounts.unmarked (hrole ▸ h.role) (hmarked.mono hfront.isInfix)

/-- Of a conversation the newest sixteen messages that count are kept, each trimmed and cut. It comes to the
same to take it in part by part, and no front of what is kept of the assistant's words shows a marker. -/
theorem normalize_keeps_newest (raw : List RawMessage) :
    List.Forall₂ Becomes ((raw.filter (Counts ·)).rtake 16) (normalize raw) ∧
      (∀ earlier later, normalize (earlier ++ later) =
        (normalize earlier ++ normalize later).rtake 16) ∧
      ∀ turn ∈ normalize raw, turn.role = .assistant → ∀ front : String,
        front.toList <+: turn.content.toList → ¬ Diagnostic.Marked front := by
  have hkept := newest_forall₂ (filterMap_admit? raw) maxMessages
  refine ⟨hkept, fun earlier later => ?_, fun turn hturn hrole front hfront => ?_⟩
  · rw [normalize, List.filterMap_append, newest_append]
    rfl
  · obtain ⟨m, _, hadmit⟩ := List.mem_filterMap.1 (List.mem_of_mem_drop hturn)
    rcases admitted m with ⟨_, hcounts, hbecomes, hturn'⟩ | ⟨_, hnone⟩
    · obtain rfl := Option.some.inj (hturn'.symm.trans hadmit)
      exact hbecomes.unmarked hcounts hrole hfront
    · cases hnone.symm.trans hadmit

end History

end Advisor

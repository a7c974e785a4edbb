import Advisor.Proofs.Text.Casing

/-!
The lower-case form is final: a character that it gives has no other lower-case form, wherever it stands,
so that to lower the case of a text twice is to lower it once.
-/

namespace Advisor.Text

/-- A character that stays as it is. -/
def Lowered (c : Char) : Prop := lowerChar c = [c]

/-- The run has a letter at the place. -/
def Hits (run : Nat × Nat × Nat × Int) (n : Nat) : Prop :=
  run.1 ≤ n ∧ n ≤ run.2.1 ∧ (n - run.1) % run.2.2.1 = 0

instance (run : Nat × Nat × Nat × Int) (n : Nat) : Decidable (Hits run n) :=
  inferInstanceAs (Decidable (_ ∧ _ ∧ _))

/-- No rule gives the character another form. -/
def Unmoved (c : Char) : Prop :=
  (c.toNat < 0x80 → c.toLower = c) ∧ c.toNat ≠ 0x130 ∧ ∀ run ∈ lowerRuns.toList, ¬ Hits run c.toNat

instance (c : Char) : Decidable (Unmoved c) :=
  inferInstanceAs (Decidable (_ ∧ _ ∧ _))

theorem find?_of_unmoved {c : Char} (h : ∀ run ∈ lowerRuns.toList, ¬ Hits run c.toNat) :
    lowerRuns.find? (fun (lo, hi, stride, _) =>
      lo ≤ c.toNat && c.toNat ≤ hi && (c.toNat - lo) % stride == 0) = none := by
  refine Array.find?_eq_none.2 fun run hrun => ?_
  have hnot := h run (Array.mem_toList_iff.2 hrun)
  simpa only [Hits, Bool.and_eq_true, decide_eq_true_eq, beq_iff_eq, and_assoc] using hnot

theorem Unmoved.lowered {c : Char} (h : Unmoved c) : Lowered c := by
  obtain ⟨hascii, hmark, hruns⟩ := h
  by_cases hc : c.toNat < 0x80
  · rw [Lowered, lowerChar_of_lt hc, hascii hc]
  · unfold Lowered lowerChar
    simp only [if_neg hc, if_neg hmark, find?_of_unmoved hruns]

def firstForm (run : Nat × Nat × Nat × Int) : Nat := (run.1 + run.2.2.2).toNat

def lastForm (run : Nat × Nat × Nat × Int) : Nat := (run.2.1 + run.2.2.2).toNat

/-- Where the first run leads, the second does not begin: it lies elsewhere, or it takes every second
character and the first leads to the others. -/
def Apart (run other : Nat × Nat × Nat × Int) : Prop :=
  other.2.1 < firstForm run ∨ lastForm run < other.1 ∨
    (other.2.2.1 = 2 ∧ (run.2.2.1 = 2 ∨ run.1 = run.2.1) ∧ (firstForm run + other.1) % 2 = 1)

instance (run other : Nat × Nat × Nat × Int) : Decidable (Apart run other) :=
  inferInstanceAs (Decidable (_ ∨ _ ∨ _ ∧ _ ∧ _))

theorem lowerRuns_apart {run : Nat × Nat × Nat × Int} (h : run ∈ lowerRuns) :
    Apart run (0x130, 0x130, 1, 0) ∧ ∀ other ∈ lowerRuns.toList, Apart run other := by
  have hall : lowerRuns.toList.all fun run =>
      Apart run (0x130, 0x130, 1, 0) && lowerRuns.toList.all fun other => Apart run other := by
    decide +kernel
  have hrun := List.all_eq_true.1 hall run (Array.mem_toList_iff.2 h)
  simpa only [Bool.and_eq_true, decide_eq_true_eq, List.all_eq_true] using hrun

theorem toLower_of_ascii : ∀ n < 0x80, (Char.ofNat n).toLower.toNat < 0x80 ∧
    (Char.ofNat n).toLower.toLower = (Char.ofNat n).toLower := by
  decide +kernel

def marks : List Char := ['i', '\u0307', 'σ', 'ς', '\x00', 'k']

theorem unmoved_of_mem_marks {c : Char} (h : c ∈ marks) : Unmoved c := by
  have hall : marks.all (Unmoved ·) := by decide +kernel
  exact of_decide_eq_true (List.all_eq_true.1 hall c h)

theorem Apart.not_hits {lo hi stride n m : Nat} {distance : Int} {other : Nat × Nat × Nat × Int}
    (h : Apart (lo, hi, stride, distance) other) (hlo : lo ≤ n) (hhi : n ≤ hi)
    (hstride : (n - lo) % stride = 0) (hforms : 0 ≤ lo + distance) (hm : (m : Int) = n + distance) :
    ¬ Hits other m := by
  obtain ⟨lo', hi', stride', _⟩ := other
  rintro ⟨hlo', hhi', hstride'⟩
  simp only [Apart, firstForm, lastForm] at h hlo' hhi' hstride'
  rcases h with h | h | ⟨rfl, hparity, hodd⟩
  · omega
  · omega
  · rcases hparity with rfl | rfl <;> omega

theorem unmoved_of_run {lo hi stride n : Nat} {distance : Int}
    (hrun : (lo, hi, stride, distance) ∈ lowerRuns) (hlo : lo ≤ n) (hhi : n ≤ hi)
    (hstride : (n - lo) % stride = 0) : Unmoved (Char.ofNat ((n : Int) + distance).toNat) := by
  obtain ⟨hmark, hothers⟩ := lowerRuns_apart hrun
  generalize hc : Char.ofNat ((n : Int) + distance).toNat = c
  rcases lowerRuns_form _ hrun with habove | hkelvin
  · dsimp only at habove
    rcases hc ▸ toNat_ofNat_cases ((n : Int) + distance).toNat with hcode | hzero
    · have hm : (c.toNat : Int) = n + distance := by omega
      refine ⟨fun hascii => absurd hascii (by omega), fun he => ?_, fun other hother => ?_⟩
      · refine hmark.not_hits hlo hhi hstride (by omega) hm ?_
        exact ⟨Nat.le_of_eq he.symm, Nat.le_of_eq he, Nat.mod_one _⟩
      · exact (hothers other hother).not_hits hlo hhi hstride (by omega) hm
    · obtain rfl : c = '\x00' := by rw [← Char.ofNat_toNat c, hzero]
      exact unmoved_of_mem_marks (by simp [marks])
  · cases hkelvin
    obtain rfl := Nat.le_antisymm hhi hlo
    obtain rfl : c = 'k' := hc ▸ by decide
    exact unmoved_of_mem_marks (by simp [marks])

theorem lowered_of_mem_lowerChar {c d : Char} (h : c ∈ lowerChar d) : Lowered c := by
  by_cases hascii : d.toNat < 0x80
  · rw [lowerChar_of_lt hascii, List.mem_singleton] at h
    have hlow := toLower_of_ascii d.toNat hascii
    rw [Char.ofNat_toNat, ← h] at hlow
    rw [Lowered, lowerChar_of_lt hlow.1, hlow.2]
  by_cases hmark : d.toNat = 0x130
  · unfold lowerChar at h
    simp only [if_neg hascii, if_pos hmark] at h
    exact (unmoved_of_mem_marks (List.mem_append_left ['σ', 'ς', '\x00', 'k'] h)).lowered
  unfold lowerChar at h
  simp only [if_neg hascii, if_neg hmark] at h
  split at h
  · rename_i lo hi stride distance hrun
    have hbounds := Array.find?_some hrun
    simp only [Bool.and_eq_true, decide_eq_true_eq, beq_iff_eq] at hbounds
    rw [List.mem_singleton.1 h]
    exact (unmoved_of_run (Array.mem_of_find?_eq_some hrun) hbounds.1.1 hbounds.1.2 hbounds.2).lowered
  · rename_i hnone
    rw [List.mem_singleton.1 h]
    unfold Lowered lowerChar
    simp only [if_neg hascii, if_neg hmark, hnone]

theorem lowered_of_mem_lowerAfter {c : Char} {before cs : List Char}
    (h : c ∈ lowerAfter before cs) : Lowered c := by
  induction cs generalizing before with
  | nil => cases h
  | cons d cs ih =>
      rw [lowerAfter, List.mem_append] at h
      rcases h with h | h
      · split at h
        · refine (unmoved_of_mem_marks ?_).lowered
          split at h <;> simp [List.mem_singleton.1 h, marks]
        · exact lowered_of_mem_lowerChar h
      · exact ih h

theorem lowered_of_mem_lower {c : Char} {s : String} (h : c ∈ (lower s).toList) : Lowered c := by
  rw [lower, String.toList_ofList] at h
  exact lowered_of_mem_lowerAfter h

/-- A capital sigma does not stay as it is, so that no character here asks what stands around it. -/
theorem lowerAfter_of_lowered {cs : List Char} (h : ∀ c ∈ cs, Lowered c) (before : List Char) :
    lowerAfter before cs = cs := by
  induction cs generalizing before with
  | nil => rfl
  | cons c cs ih =>
      obtain ⟨hc, hcs⟩ := List.forall_mem_cons.1 h
      have hsigma : c ≠ 'Σ' := by
        rintro rfl
        rw [Lowered, lowerChar_sigma] at hc
        exact absurd hc (by decide)
      have hform : lowerChar c = [c] := hc
      rw [lowerAfter, if_neg hsigma, hform, ih hcs, List.singleton_append]

theorem lower_eq_self_iff {s : String} : lower s = s ↔ ∀ c ∈ s.toList, Lowered c := by
  constructor
  · intro h c hc
    rw [← h] at hc
    exact lowered_of_mem_lower hc
  · intro h
    rw [lower, lowerAfter_of_lowered h, String.ofList_toList]

@[simp] theorem lower_lower (s : String) : lower (lower s) = lower s :=
  lower_eq_self_iff.2 fun _ hc => lowered_of_mem_lower hc

theorem length_lowerAfter (before cs : List Char) :
    (lowerAfter before cs).length = (cs.flatMap lowerChar).length := by
  rw [← List.length_map (f := unfinal), map_unfinal_lowerAfter, List.length_map]

end Advisor.Text

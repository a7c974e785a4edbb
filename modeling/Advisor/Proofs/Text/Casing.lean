import Advisor.Proofs.Text.Occurrence
import Mathlib.Data.List.Forall2

/-!
Words in any letter case. A text has a word of small letters for its lower-case form when it spells the
word, each letter small or capital; no character above ASCII passes for one of its letters.
-/

namespace Advisor.Text

/-- A small letter of ASCII. The Kelvin sign has the lower-case form of `K`, so that `k` is none. -/
def IsPlain (c : Char) : Prop := c.isLower ∧ c ≠ 'k'

instance (c : Char) : Decidable (IsPlain c) :=
  inferInstanceAs (Decidable (_ ∧ _))

def Capitalizes (letter c : Char) : Prop := c = letter ∨ c = letter.toUpper

instance (letter c : Char) : Decidable (Capitalizes letter c) :=
  inferInstanceAs (Decidable (_ ∨ _))

/-- The text is the word, in any letter case. -/
def Spells (word text : String) : Prop := List.Forall₂ Capitalizes word.toList text.toList

instance (word text : String) : Decidable (Spells word text) :=
  inferInstanceAs (Decidable (List.Forall₂ _ _ _))

theorem IsPlain.bounds {c : Char} (h : IsPlain c) : 0 < c.toNat ∧ c.toNat < 0x80 := by
  obtain ⟨hfirst, hlast⟩ := Bool.and_eq_true_iff.1 h.1
  have ha : 'a'.toNat ≤ c.toNat := of_decide_eq_true hfirst
  have hz : c.toNat ≤ 'z'.toNat := of_decide_eq_true hlast
  simp only [Char.reduceToNat] at ha hz
  omega

theorem lowerRuns_form : ∀ run ∈ lowerRuns,
    (0x80 : Int) ≤ (run.1 : Int) + run.2.2.2 ∨ run = (0x212A, 0x212A, 1, -8383) := by
  simp only [← Array.mem_toList_iff]
  decide +kernel

theorem capitalizes_toLower : ∀ n < 0x80, IsPlain (Char.ofNat n).toLower →
    Capitalizes (Char.ofNat n).toLower (Char.ofNat n) := by
  decide +kernel

theorem toLower_of_plain : ∀ n < 0x80, IsPlain (Char.ofNat n) →
    (Char.ofNat n).toLower = Char.ofNat n ∧ (Char.ofNat n).toUpper.toNat < 0x80 ∧
      (Char.ofNat n).toUpper.toLower = Char.ofNat n := by
  decide +kernel

theorem lowerChar_of_lt {c : Char} (h : c.toNat < 0x80) : lowerChar c = [c.toLower] := by
  unfold lowerChar
  exact if_pos h

theorem toNat_lt_of_lowerChar {c : Char} (h : ∀ l ∈ lowerChar c, IsPlain l) : c.toNat < 0x80 := by
  by_contra hc
  unfold lowerChar at h
  simp only [if_neg hc] at h
  split at h
  · exact absurd (h '\u0307' (by simp)) (by decide)
  split at h
  · rename_i lo hi stride distance hrun
    have hplain := h _ (List.mem_singleton_self _)
    have hbounds := Array.find?_some hrun
    simp only [Bool.and_eq_true, decide_eq_true_eq] at hbounds
    obtain ⟨⟨hlo, hhi⟩, _⟩ := hbounds
    rcases lowerRuns_form _ (Array.mem_of_find?_eq_some hrun) with habove | hkelvin
    · have hform := toNat_ofNat_cases ((c.toNat : Int) + distance).toNat
      have hascii := hplain.bounds
      dsimp only at habove
      omega
    · cases hkelvin
      rw [Nat.le_antisymm hhi hlo] at hplain
      exact absurd hplain (by decide)
  · exact hc (h c (List.mem_singleton_self c)).bounds.2

theorem exists_form (before cs : List Char) (c : Char) :
    ∃ form, lowerAfter before (c :: cs) = form ++ lowerAfter (c :: before) cs ∧
      ((∀ l ∈ form, IsPlain l) → c.toNat < 0x80) ∧ (c.toNat < 0x80 → form = [c.toLower]) := by
  rw [lowerAfter]
  refine ⟨_, rfl, ?_⟩
  split
  · subst c
    refine ⟨fun h => ?_, fun h => absurd h (by decide)⟩
    split at h <;> exact absurd (h _ (List.mem_singleton_self _)) (by decide)
  · exact ⟨toNat_lt_of_lowerChar, lowerChar_of_lt⟩

theorem capitalizes_iff {l c : Char} (hl : IsPlain l) :
    Capitalizes l c ↔ c.toNat < 0x80 ∧ c.toLower = l := by
  constructor
  · intro h
    have hplain := toLower_of_plain l.toNat hl.bounds.2
    rw [Char.ofNat_toNat] at hplain
    obtain ⟨hsmall, hbound, hcapital⟩ := hplain hl
    obtain rfl | rfl := h
    · exact ⟨hl.bounds.2, hsmall⟩
    · exact ⟨hbound, hcapital⟩
  · rintro ⟨hc, rfl⟩
    have hcap := capitalizes_toLower c.toNat hc
    rw [Char.ofNat_toNat] at hcap
    exact hcap hl

theorem lowerAfter_eq_iff {word : List Char} (hword : ∀ l ∈ word, IsPlain l) (before cs : List Char) :
    lowerAfter before cs = word ↔ List.Forall₂ Capitalizes word cs := by
  induction cs generalizing word before with
  | nil => rw [lowerAfter, List.forall₂_nil_right_iff, eq_comm]
  | cons c cs ih =>
      obtain ⟨form, hlower, hascii, hform⟩ := exists_form before cs c
      rw [hlower]
      constructor
      · rintro rfl
        obtain ⟨hfirst, hrest⟩ := List.forall_mem_append.1 hword
        have hc := hascii hfirst
        obtain rfl := hform hc
        have hplain := hfirst _ (List.mem_singleton_self _)
        exact .cons ((capitalizes_iff hplain).2 ⟨hc, rfl⟩) ((ih hrest _).1 rfl)
      · rintro (_ | ⟨hfirst, hrest⟩)
        obtain ⟨hplain, hletters⟩ := List.forall_mem_cons.1 hword
        obtain ⟨hc, rfl⟩ := (capitalizes_iff hplain).1 hfirst
        rw [hform hc, (ih hletters _).2 hrest]
        rfl

theorem lower_eq_iff {word text : String} (hword : word.toList.all (IsPlain ·) = true) :
    lower text = word ↔ Spells word text := by
  have hplain : ∀ l ∈ word.toList, IsPlain l := by
    intro l hl
    exact of_decide_eq_true (List.all_eq_true.1 hword l hl)
  rw [← String.toList_inj, lower, String.toList_ofList]
  exact lowerAfter_eq_iff hplain [] text.toList

end Advisor.Text

import Advisor.Proofs.Number.Nearest
import Mathlib

/-!
How a number becomes a double: its bits are cut off at the last place there is, the rest decides to which side
it is rounded, and what is packed is read again.
-/

namespace Advisor.Number

open Float.Model UnpackedFloat

section Rounding

variable {em : ExtendedMantissa} {q : ℚ} {m : ℕ} {e : ℤ}

/-- The number that a mantissa was cut from, as far as the bits tell that were cut off. -/
def Cut (q : ℚ) : ExtendedMantissa → Prop
  | ⟨m, false, false⟩ => q = m
  | ⟨m, false, true⟩ => m < q ∧ q < m + 1 / 2
  | ⟨m, true, false⟩ => q = m + 1 / 2
  | ⟨m, true, true⟩ => m + 1 / 2 < q ∧ q < m + 1

theorem Cut.bounds (h : Cut q em) : em.mantissa ≤ q ∧ q < em.mantissa + 1 := by
  obtain ⟨m, round, sticky⟩ := em
  cases round <;> cases sticky <;> simp only [Cut] at h <;> constructor <;> linarith

theorem Cut.floor (h : Cut q em) : ⌊q⌋₊ = em.mantissa :=
  (Nat.floor_eq_iff (h.bounds.1.trans' (Nat.cast_nonneg _))).2 h.bounds

theorem Cut.roundedMantissa (h : Cut q em) : em.roundedMantissa = nearestWhole q := by
  have hfloor := h.floor
  obtain ⟨m, round, sticky⟩ := em
  unfold nearestWhole
  rw [hfloor]
  cases round <;> cases sticky <;> simp only [Cut] at h <;>
    simp only [ExtendedMantissa.roundedMantissa, ExtendedMantissa.accuracy, Accuracy.roundToNearestEven]
  · rw [if_pos (by linarith)]
  · rw [if_pos (by linarith)]
  · rw [if_neg (by linarith), if_neg (by linarith)]
  · rw [if_neg (by linarith), if_pos (by linarith)]

theorem Cut.shiftRightOne (h : Cut q em) : Cut (q / 2) em.shiftRightOne := by
  obtain ⟨m, round, sticky⟩ := em
  have hsplit : (m : ℚ) = 2 * (m / 2 : ℕ) + (m % 2 : ℕ) := by exact_mod_cast (Nat.div_add_mod m 2).symm
  rcases Nat.mod_two_eq_zero_or_one m with hlast | hlast <;> rw [hlast] at hsplit <;>
    cases round <;> cases sticky <;>
      simp only [Cut, ExtendedMantissa.shiftRightOne, hlast, bne_self_eq_false, Nat.reduceBNe, Bool.or_false,
        Bool.or_true, Nat.cast_zero, Nat.cast_one] at h hsplit ⊢ <;>
      first | linarith | exact ⟨by linarith, by linarith⟩

theorem Cut.shiftRight (h : Cut q em) (n : ℕ) : Cut (q / 2 ^ n) (em >>> n) := by
  change Cut _ (n.repeat ExtendedMantissa.shiftRightOne em)
  induction n with
  | zero =>
      rw [pow_zero, div_one]
      exact h
  | succ n ih =>
      rw [pow_succ, ← div_div]
      exact ih.shiftRightOne

theorem targetExponent_eq (m : ℕ) (e : ℤ) :
    Format.binary64.targetExponent (totalExponent m e) = max (m.log2 + e - 52) (-1074) := by
  simp only [Format.targetExponent, totalExponent, Format.mantissaBits, Format.minExponent]
  norm_num
  omega

/-- A rounded mantissa has 53 bits, or is the first number that has more. -/
def carried (m : ℕ) (e : ℤ) : UnpackedFloat :=
  if h : m = 0 then .zero .positive
  else if m < 2 ^ 53 then .finite .positive m e (Nat.pos_of_ne_zero h)
  else .finite .positive (2 ^ 52) (e + 1) (by decide)

theorem shift_of_fits (hm : m < 2 ^ 53) (he : -1074 ≤ e) :
    shiftToTargetExponent .binary64 m e .exact = (⟨m, false, false⟩, e) := by
  have hlog : m.log2 ≤ 52 := by
    rcases Nat.eq_zero_or_pos m with rfl | hpos
    · decide
    · exact Nat.le_of_lt_succ ((Nat.log2_lt hpos.ne').2 hm)
  have hshift : (Format.binary64.targetExponent (totalExponent m e) - e).toNat = 0 := by
    rw [targetExponent_eq]
    omega
  simp only [shiftToTargetExponent, shiftToExponent, hshift, Nat.cast_zero, add_zero]
  rfl

theorem shift_of_carry (he : -1074 ≤ e) :
    shiftToTargetExponent .binary64 (2 ^ 53) e .exact = (⟨2 ^ 52, false, false⟩, e + 1) := by
  have hshift : (Format.binary64.targetExponent (totalExponent (2 ^ 53) e) - e).toNat = 1 := by
    rw [targetExponent_eq, Nat.log2_two_pow]
    omega
  simp only [shiftToTargetExponent, shiftToExponent, hshift, Nat.cast_one]
  rfl

theorem roundWithAccuracy_eq {accuracy : Accuracy}
    (hcut : Cut q (.ofMantissaAndAccuracy m accuracy)) (hq : 0 < q) (hroom : 2 ^ 52 ≤ m ∨ e ≤ -1074) :
    roundWithAccuracy .binary64 .positive m e accuracy =
      carried (nearestWhole (q * 2 ^ e / 2 ^ place (q * 2 ^ e))) (place (q * 2 ^ e)) := by
  have hm : (ExtendedMantissa.ofMantissaAndAccuracy m accuracy).mantissa = m := by
    rcases accuracy with _ | order
    · rfl
    · cases order <;> rfl
  have hbounds := hcut.bounds
  rw [hm] at hbounds
  have htarget := place_eq hq hbounds.1 hbounds.2 hroom
  have hbelow : e ≤ place (q * 2 ^ e) := by
    rcases hroom with hroom | hroom
    · have := (Nat.le_log2 (by omega)).2 hroom
      omega
    · omega
  rw [← targetExponent_eq] at htarget
  have hplace : -1074 ≤ place (q * 2 ^ e) := le_max_right _ _
  have hbound := nearestWhole_place_le (q * 2 ^ e)
  generalize place (q * 2 ^ e) = t at *
  have hrest : (((t - e).toNat : ℕ) : ℤ) = t - e := Int.toNat_of_nonneg (by omega)
  have hshifted := (hcut.shiftRight (t - e).toNat).roundedMantissa
  have hsame : q / 2 ^ (t - e).toNat = q * 2 ^ e / 2 ^ t := by
    rw [← zpow_natCast, hrest, zpow_sub₀ (by norm_num), div_div_eq_mul_div]
  rw [hsame] at hshifted
  have hfirst : shiftToTargetExponent .binary64 m e accuracy =
      (ExtendedMantissa.ofMantissaAndAccuracy m accuracy >>> (t - e).toNat, t) := by
    simp only [shiftToTargetExponent, shiftToExponent, ← htarget, hrest]
    rw [add_sub_cancel]
  simp only [roundWithAccuracy, hfirst, hshifted, carried]
  rcases hbound.lt_or_eq with hless | heq
  · simp only [shift_of_fits hless hplace, if_pos hless]
  · simp only [heq, shift_of_carry hplace]
    rfl

end Rounding

section Packing

variable {m : ℕ} {e : ℤ}

/-- A double that is not negative, and the number that it is. -/
inductive Reads : UnpackedFloat → WithTop ℚ → Prop
  | zero : Reads (.zero .positive) 0
  | finite {m : ℕ} {e : ℤ} (hpos : 0 < m) (hm : m < 2 ^ 53) (hlow : -1074 ≤ e) (hhigh : e ≤ 971)
      (hfull : 2 ^ 52 ≤ m ∨ e = -1074) : Reads (.finite .positive m e hpos) ((m * 2 ^ e : ℚ) : WithTop ℚ)
  | infinity : Reads (.infinity .positive) ⊤

def rounded : WithTop ℚ → WithTop ℚ
  | ⊤ => ⊤
  | (q : ℚ) => if nearest q < 2 ^ 1024 then (nearest q : ℚ) else ⊤

theorem pack_finite (hpos : 0 < m) :
    UnpackedFloat.pack .binary64 (.finite .positive m e hpos) =
      if 2 ^ 11 ≤ (e + 1023 + 52).toNat + 1 then packedInfinity .binary64 .positive
      else if m.log2 + 1 = 53 then
        packComponents .binary64 .positive (BitVec.ofNat 11 (e + 1023 + 52).toNat) (BitVec.ofNat 52 m)
      else packComponents .binary64 .positive 0#11 (BitVec.ofNat 52 m) :=
  rfl

theorem unpack_pack_normal (hpos : 0 < m) (hm : m < 2 ^ 53) (hlow : -1074 ≤ e) (hhigh : e ≤ 971)
    (hfull : 2 ^ 52 ≤ m) :
    (Float.Model.pack (.finite .positive m e hpos)).unpack = .finite .positive m e hpos := by
  have hlog : m.log2 + 1 = 53 := by
    have := (Nat.le_log2 hpos.ne').2 hfull
    have := (Nat.log2_lt hpos.ne').2 hm
    omega
  have hunder : ¬ 2 ^ 11 ≤ (e + 1023 + 52).toNat + 1 := by omega
  have hexponent : (BitVec.ofNat 11 (e + 1023 + 52).toNat).toNat = (e + 1023 + 52).toNat := by
    rw [BitVec.toNat_ofNat]
    omega
  have hmantissa : (1#1 ++ BitVec.ofNat 52 m).toNat = m := by
    rw [BitVec.toNat_append, ← Nat.shiftLeft_add_eq_or_of_lt (BitVec.isLt _), BitVec.toNat_ofNat,
      BitVec.toNat_ofNat, Nat.shiftLeft_eq]
    omega
  have hones : BitVec.ofNat 11 (e + 1023 + 52).toNat ≠ -1#11 := by
    intro h
    have hall : (e + 1023 + 52).toNat = 2047 := hexponent.symm.trans (congrArg BitVec.toNat h)
    omega
  have hzero : BitVec.ofNat 11 (e + 1023 + 52).toNat ≠ 0#11 := by
    intro h
    have hnone : (e + 1023 + 52).toNat = 0 := hexponent.symm.trans (congrArg BitVec.toNat h)
    omega
  change UnpackedFloat.unpack .binary64 (UnpackedFloat.pack .binary64 (.finite .positive m e hpos)) = _
  rw [pack_finite, if_neg hunder, if_pos hlog]
  simp only [UnpackedFloat.unpack, unpackExponent_packComponents, unpackMantissa_packComponents,
    unpackSign_packComponents, hones, hzero, if_false, hexponent, hmantissa]
  congr 1
  change ((e + 1023 + 52).toNat : ℤ) - (1023 + 52) = e
  omega

theorem unpack_pack_subnormal (hpos : 0 < m) (hm : m < 2 ^ 52) :
    (Float.Model.pack (.finite .positive m (-1074) hpos)).unpack = .finite .positive m (-1074) hpos := by
  have hlog : ¬ m.log2 + 1 = 53 := by
    have := (Nat.log2_lt hpos.ne').2 hm
    omega
  have hmantissa : (BitVec.ofNat 52 m).toNat = m := by
    rw [BitVec.toNat_ofNat, Nat.mod_eq_of_lt hm]
  have hzero : BitVec.ofNat 52 m ≠ 0#52 := by
    intro h
    exact hpos.ne' (hmantissa.symm.trans (congrArg BitVec.toNat h))
  have hones : (0#11) ≠ -1#11 := by decide
  change UnpackedFloat.unpack .binary64
    (UnpackedFloat.pack .binary64 (.finite .positive m (-1074) hpos)) = _
  rw [pack_finite, if_neg (by decide), if_neg hlog]
  simp only [UnpackedFloat.unpack, unpackExponent_packComponents, unpackMantissa_packComponents,
    unpackSign_packComponents, hones, hzero, if_false, if_true, dite_false, hmantissa]
  rfl

theorem unpack_pack_great (hpos : 0 < m) (hhigh : 971 < e) :
    (Float.Model.pack (.finite .positive m e hpos)).unpack = .infinity .positive := by
  have hover : 2 ^ 11 ≤ (e + 1023 + 52).toNat + 1 := by omega
  change UnpackedFloat.unpack .binary64 (UnpackedFloat.pack .binary64 (.finite .positive m e hpos)) = _
  rw [pack_finite, if_pos hover]
  rfl

theorem bound_eq : ((2 ^ 53 : ℕ) : ℚ) * 2 ^ (971 : ℤ) = 2 ^ 1024 := by
  have hsum : ((1024 : ℕ) : ℤ) = 53 + 971 := rfl
  rw [← zpow_natCast (2 : ℚ) 1024, hsum, zpow_add₀ (by norm_num)]
  norm_num

theorem reads_pack (hpos : 0 < m) (hm : m < 2 ^ 53) (hlow : -1074 ≤ e) (hfull : 2 ^ 52 ≤ m ∨ e = -1074) :
    Reads (Float.Model.pack (.finite .positive m e hpos)).unpack
      (if (m * 2 ^ e : ℚ) < 2 ^ 1024 then ((m * 2 ^ e : ℚ) : WithTop ℚ) else ⊤) := by
  rcases le_or_gt e 971 with hhigh | hhigh
  · have hless : (m : ℚ) * 2 ^ e < 2 ^ 1024 := by
      rw [← bound_eq]
      calc
        (m : ℚ) * 2 ^ e ≤ m * 2 ^ (971 : ℤ) :=
          mul_le_mul_of_nonneg_left (zpow_le_zpow_right₀ (by norm_num) hhigh) (Nat.cast_nonneg m)
        _ < (2 ^ 53 : ℕ) * 2 ^ (971 : ℤ) := mul_lt_mul_of_pos_right (by exact_mod_cast hm) (by positivity)
    rw [if_pos hless]
    have hunpack : (Float.Model.pack (.finite .positive m e hpos)).unpack = .finite .positive m e hpos := by
      rcases le_or_gt (2 ^ 52) m with hnormal | hnormal
      · exact unpack_pack_normal hpos hm hlow hhigh hnormal
      · obtain rfl := hfull.resolve_left hnormal.not_ge
        exact unpack_pack_subnormal hpos hnormal
    rw [hunpack]
    exact .finite hpos hm hlow hhigh hfull
  · have hmost : (2 : ℚ) ^ 1024 ≤ m * 2 ^ e := by
      have hnormal : 2 ^ 52 ≤ m := hfull.resolve_right (by omega)
      rw [← bound_eq]
      calc
        ((2 ^ 53 : ℕ) : ℚ) * 2 ^ (971 : ℤ) = (2 ^ 52 : ℕ) * 2 ^ ((971 : ℤ) + 1) := (carry_eq 971).symm
        _ ≤ m * 2 ^ e := by
          gcongr
          · norm_num
          · exact hhigh
    rw [if_neg hmost.not_gt, unpack_pack_great hpos hhigh]
    exact .infinity

theorem reads_carried (hm : m ≤ 2 ^ 53) (hlow : -1074 ≤ e) (hfull : 2 ^ 52 ≤ m ∨ e = -1074) :
    Reads (Float.Model.pack (carried m e)).unpack
      (if (m * 2 ^ e : ℚ) < 2 ^ 1024 then ((m * 2 ^ e : ℚ) : WithTop ℚ) else ⊤) := by
  unfold carried
  split
  · rename_i hzero
    rw [hzero, Nat.cast_zero, zero_mul, if_pos (by norm_num)]
    exact .zero
  rename_i hpos
  split
  · rename_i hless
    exact reads_pack (Nat.pos_of_ne_zero hpos) hless hlow hfull
  · rename_i hmost
    obtain rfl : m = 2 ^ 53 := by omega
    have h := reads_pack (m := 2 ^ 52) (e := e + 1) (by norm_num) (by norm_num) (by omega) (.inl le_rfl)
    rwa [carry_eq] at h

theorem reads_round {q : ℚ} {accuracy : Accuracy} (hcut : Cut q (.ofMantissaAndAccuracy m accuracy))
    (hq : 0 < q) (hroom : 2 ^ 52 ≤ m ∨ e ≤ -1074) :
    Reads (Float.Model.pack (roundWithAccuracy .binary64 .positive m e accuracy)).unpack
      (rounded ((q * 2 ^ e : ℚ) : WithTop ℚ)) := by
  rw [roundWithAccuracy_eq hcut hq hroom]
  refine reads_carried (nearestWhole_place_le _) (le_max_right _ _) ?_
  rcases (le_max_right _ _ : -1074 ≤ place (q * 2 ^ e)).eq_or_lt with hleast | hless
  · exact .inr hleast.symm
  · exact .inl (le_nearestWhole_place (by positivity) hless)

end Packing

end Advisor.Number

import Advisor.Number.Binary
import Mathlib.Algebra.Order.Field.Power
import Mathlib.Algebra.Order.Field.Rat
import Mathlib.Tactic.Positivity
import Mathlib.Tactic.Ring

/-!
What binary numbers stand for. Rounding to a format takes no number past a power of two that the format
has.
-/

namespace Advisor.Number.Binary

section Finite

open Float.Model

theorem unpackExponent_toNat (word : UInt64) :
    (@UnpackedFloat.unpackExponent .binary64 word.toBitVec).toNat =
      word.toNat / 2 ^ 52 % 2 ^ 11 := by
  simp [UnpackedFloat.unpackExponent, Nat.shiftRight_eq_div_pow]

theorem isFinite_unpack (word : UInt64) :
    (UnpackedFloat.unpack .binary64 word.toBitVec).isFinite =
      decide (word.toNat / 2 ^ 52 % 2 ^ 11 ≠ 2 ^ 11 - 1) := by
  rw [← unpackExponent_toNat]
  unfold UnpackedFloat.unpack
  generalize @UnpackedFloat.unpackExponent .binary64 word.toBitVec = exponent
  have hall : exponent = -1#_ ↔ exponent.toNat = 2 ^ 11 - 1 := by
    rw [← BitVec.toNat_inj]
    rfl
  by_cases hones : exponent = -1#_
  · rw [if_pos hones, decide_eq_false (not_not_intro (hall.1 hones))]
    by_cases hmantissa : @UnpackedFloat.unpackMantissa .binary64 word.toBitVec = 0#_
    · rw [if_pos hmantissa]
      rfl
    · rw [if_neg hmantissa]
      rfl
  · have hnot : exponent.toNat ≠ 2 ^ 11 - 1 := fun he => hones (hall.2 he)
    rw [if_neg hones, decide_eq_true hnot]
    by_cases hzero : exponent = 0#_
    · rw [if_pos hzero]
      by_cases hmantissa : @UnpackedFloat.unpackMantissa .binary64 word.toBitVec = 0#_
      · rw [dif_pos hmantissa]
        rfl
      · rw [dif_neg hmantissa]
        rfl
    · rw [if_neg hzero]
      rfl

theorem ofFloat?_isSome (x : Float) : (ofFloat? x).isSome = x.isFinite := by
  change _ = (UnpackedFloat.unpack .binary64 x.toBits.toBitVec).isFinite
  rw [isFinite_unpack]
  unfold ofFloat?
  simp only [Nat.pow_eq]
  split
  · simp_all
  · split <;> simp_all

end Finite

section Value

variable {x y : Binary}

def magnitude (x : Binary) : ℚ :=
  x.mantissa * 2 ^ x.exponent

def value (x : Binary) : ℚ :=
  if x.negative then -x.magnitude else x.magnitude

theorem magnitude_nonneg (x : Binary) : 0 ≤ x.magnitude := by
  unfold magnitude
  positivity

theorem magnitude_eq_quotient (x : Binary) :
    x.magnitude = (x.quotient.1 : ℚ) / x.quotient.2 := by
  unfold magnitude quotient
  by_cases hexp : 0 ≤ x.exponent
  · have he : (2 : ℚ) ^ x.exponent = 2 ^ x.exponent.toNat := by
      rw [← zpow_natCast, Int.toNat_of_nonneg hexp]
    simp [if_pos hexp, he]
  · have he : (2 : ℚ) ^ x.exponent = (2 ^ (-x.exponent).toNat)⁻¹ := by
      rw [← zpow_natCast, Int.toNat_of_nonneg (by omega), ← zpow_neg, neg_neg]
    simp [if_neg hexp, he, div_eq_mul_inv]

theorem quotient_pos (x : Binary) : 0 < x.quotient.2 := by
  unfold quotient
  split
  · exact Nat.one_pos
  · exact Nat.pow_pos (by decide)

theorem lessMagnitude_iff : x.lessMagnitude y = true ↔ x.magnitude < y.magnitude := by
  have hx : (0 : ℚ) < x.quotient.2 := by exact_mod_cast x.quotient_pos
  have hy : (0 : ℚ) < y.quotient.2 := by exact_mod_cast y.quotient_pos
  rw [magnitude_eq_quotient x, magnitude_eq_quotient y, div_lt_div_iff₀ hx hy, lessMagnitude,
    decide_eq_true_iff]
  exact_mod_cast Iff.rfl

theorem two_pow_sub {a b : Int} (hab : b ≤ a) : ((2 ^ (a - b).toNat : Nat) : ℚ) * 2 ^ b = 2 ^ a := by
  rw [Nat.cast_pow, Nat.cast_ofNat, ← zpow_natCast, Int.toNat_of_nonneg (by omega),
    ← zpow_add₀ two_ne_zero]
  congr 1
  omega

end Value

section Round

variable {x : Binary} {p : Precision} {k : Int}

theorem roundDiv_le {n d k : Nat} (hd : 0 < d) (hn : n ≤ k * d) : roundDiv n d ≤ k := by
  have hq : n / d ≤ k := Nat.div_le_of_le_mul (Nat.mul_comm k d ▸ hn)
  rcases hq.lt_or_eq with hlt | heq
  · unfold roundDiv
    dsimp only
    split_ifs <;> omega
  · -- the quotient is at the bound already, so nothing remains to round up
    have hr : n % d = 0 := by
      have := Nat.div_add_mod n d
      rw [heq, Nat.mul_comm d k] at this
      omega
    unfold roundDiv
    dsimp only
    rw [hr, Nat.mul_zero, if_pos hd]
    exact hq

theorem top_le (hx : x.mantissa ≠ 0) (hle : x.magnitude ≤ 2 ^ k) :
    x.exponent + x.mantissa.log2 ≤ k := by
  have hlead : ((2 ^ x.mantissa.log2 : Nat) : ℚ) ≤ x.mantissa := by
    exact_mod_cast Nat.log2_self_le hx
  have hpow : (2 : ℚ) ^ (x.exponent + x.mantissa.log2) ≤ 2 ^ k := calc
    (2 : ℚ) ^ (x.exponent + x.mantissa.log2)
        = ((2 ^ x.mantissa.log2 : Nat) : ℚ) * 2 ^ x.exponent := by
          rw [Int.add_comm, zpow_add₀ two_ne_zero, zpow_natCast]
          norm_cast
    _ ≤ x.magnitude := by
          unfold magnitude
          gcongr
    _ ≤ 2 ^ k := hle
  exact (zpow_le_zpow_iff_right₀ one_lt_two).1 hpow

@[simp] theorem round_negative : (round p x).negative = x.negative := by
  unfold round
  dsimp only
  split_ifs <;> rfl

theorem magnitude_round_le (hbits : 0 < p.bits) (hk : p.least ≤ k) (hle : x.magnitude ≤ 2 ^ k) :
    (round p x).magnitude ≤ 2 ^ k := by
  unfold round
  dsimp only
  by_cases hx : x.mantissa = 0
  · rw [if_pos hx]
    simp only [magnitude, Nat.cast_zero, zero_mul]
    positivity
  rw [if_neg hx]
  have htop := top_le hx hle
  generalize hE : max p.least (x.exponent + x.mantissa.log2 + 1 - p.bits) = E
  have hEk : E ≤ k := by omega
  generalize hm : (if E ≤ x.exponent then x.mantissa * Nat.pow 2 (x.exponent - E).toNat
    else roundDiv x.mantissa (Nat.pow 2 (E - x.exponent).toNat)) = m
  have hbound : (m : ℚ) * 2 ^ E ≤ 2 ^ k := by
    rw [← hm]
    split
    case isTrue hexact =>
      rw [Nat.cast_mul, mul_assoc, Nat.pow_eq, two_pow_sub hexact]
      exact hle
    case isFalse hcut =>
      have hn : x.mantissa ≤ 2 ^ (k - E).toNat * 2 ^ (E - x.exponent).toNat := by
        have hcast : (x.mantissa : ℚ) * 2 ^ x.exponent ≤
            ((2 ^ (k - E).toNat * 2 ^ (E - x.exponent).toNat : Nat) : ℚ) * 2 ^ x.exponent := by
          rw [Nat.cast_mul, mul_assoc, two_pow_sub (by omega), two_pow_sub hEk]
          exact hle
        exact_mod_cast le_of_mul_le_mul_right hcast (by positivity)
      calc (roundDiv x.mantissa (Nat.pow 2 (E - x.exponent).toNat) : ℚ) * 2 ^ E
          ≤ ((2 ^ (k - E).toNat : Nat) : ℚ) * 2 ^ E := by
            gcongr
            exact roundDiv_le (Nat.pow_pos (by decide)) hn
        _ = 2 ^ k := two_pow_sub hEk
  split
  case isFalse => exact hbound
  case isTrue hcarry =>
    calc ((2 ^ (p.bits - 1) : Nat) : ℚ) * 2 ^ (E + 1)
        = ((2 ^ p.bits : Nat) : ℚ) * 2 ^ E := by
          obtain ⟨b, hb⟩ := Nat.exists_eq_succ_of_ne_zero hbits.ne'
          rw [hb, zpow_add_one₀ two_ne_zero]
          push_cast
          rw [pow_succ]
          ring
      _ ≤ 2 ^ k := by
          rw [← Nat.pow_eq, ← hcarry]
          exact hbound

end Round

end Advisor.Number.Binary

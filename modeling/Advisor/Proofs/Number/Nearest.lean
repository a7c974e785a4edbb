import Mathlib.Algebra.Order.Field.Power
import Mathlib.Data.Int.Log
import Mathlib.Data.Rat.Floor
import Mathlib.Tactic.Linarith
import Mathlib.Tactic.NormNum.Pow
import Mathlib.Tactic.Positivity

/-!
The number of a format nearest to another, for numbers that are not negative. What is greater has no smaller
number nearest to it.
-/

namespace Advisor.Number

/-- The whole number nearest to another, the even one of two. -/
def nearestWhole (q : ℚ) : ℕ :=
  if q - ⌊q⌋₊ < 1 / 2 then ⌊q⌋₊ else if 1 / 2 < q - ⌊q⌋₊ then ⌊q⌋₊ + 1 else ⌊q⌋₊ + ⌊q⌋₊ % 2

/-- The exponent of the last place that a double has for a number. -/
def place (q : ℚ) : ℤ :=
  max (Int.log 2 q - 52) (-1074)

/-- The double nearest to a number, if there were no greatest. -/
def nearest (q : ℚ) : ℚ :=
  nearestWhole (q / 2 ^ place q) * 2 ^ place q

section Whole

variable {a b q : ℚ}

theorem floor_le_nearestWhole (q : ℚ) : ⌊q⌋₊ ≤ nearestWhole q := by
  unfold nearestWhole
  split_ifs <;> omega

theorem nearestWhole_le_floor_succ (q : ℚ) : nearestWhole q ≤ ⌊q⌋₊ + 1 := by
  unfold nearestWhole
  split_ifs <;> omega

@[simp] theorem nearestWhole_natCast (n : ℕ) : nearestWhole n = n := by
  rw [nearestWhole, Nat.floor_natCast, sub_self, if_pos (by norm_num)]

theorem nearestWhole_mono (h : a ≤ b) : nearestWhole a ≤ nearestWhole b := by
  rcases (Nat.floor_mono h).eq_or_lt with hfloor | hfloor
  · unfold nearestWhole
    rw [← hfloor]
    split_ifs <;> first | omega | linarith
  · calc
      nearestWhole a ≤ ⌊a⌋₊ + 1 := nearestWhole_le_floor_succ a
      _ ≤ ⌊b⌋₊ := hfloor
      _ ≤ nearestWhole b := floor_le_nearestWhole b

end Whole

section Place

variable {a b q : ℚ}

theorem place_mono (ha : 0 < a) (h : a ≤ b) : place a ≤ place b :=
  max_le_max_right _ (sub_le_sub_right (Int.log_mono_right ha h) 52)

theorem lt_of_place (a : ℚ) : a / 2 ^ place a < 2 ^ 53 := by
  have hlog : a < 2 ^ (Int.log 2 a + 1) := by
    exact_mod_cast Int.lt_zpow_succ_log_self (b := 2) (by norm_num) a
  have hplace : Int.log 2 a + 1 ≤ 53 + place a := by
    have := le_max_left (Int.log 2 a - 52) (-1074)
    unfold place
    omega
  rw [div_lt_iff₀ (by positivity)]
  calc
    a < 2 ^ (Int.log 2 a + 1) := hlog
    _ ≤ 2 ^ ((53 : ℤ) + place a) := zpow_le_zpow_right₀ (by norm_num) hplace
    _ = 2 ^ 53 * 2 ^ place a := by rw [zpow_add₀ (by norm_num)]; norm_cast

theorem le_of_place (ha : 0 < a) (h : -1074 < place a) : 2 ^ 52 ≤ a / 2 ^ place a := by
  have hlog : (2 : ℚ) ^ Int.log 2 a ≤ a := by
    exact_mod_cast Int.zpow_log_le_self (b := 2) (by norm_num) ha
  have hplace : Int.log 2 a = 52 + place a := by
    unfold place at h ⊢
    omega
  rw [le_div_iff₀ (by positivity)]
  calc
    (2 : ℚ) ^ 52 * 2 ^ place a = 2 ^ ((52 : ℤ) + place a) := by rw [zpow_add₀ (by norm_num)]; norm_cast
    _ = 2 ^ Int.log 2 a := by rw [hplace]
    _ ≤ a := hlog

end Place

section Nearest

variable {a b : ℚ}

theorem nearestWhole_place_le (a : ℚ) : nearestWhole (a / 2 ^ place a) ≤ 2 ^ 53 := by
  have h := nearestWhole_mono (lt_of_place a).le
  rwa [← Nat.cast_ofNat (n := 2), ← Nat.cast_pow, nearestWhole_natCast] at h

theorem le_nearestWhole_place (ha : 0 < a) (h : -1074 < place a) :
    2 ^ 52 ≤ nearestWhole (a / 2 ^ place a) := by
  have h := nearestWhole_mono (le_of_place ha h)
  rwa [← Nat.cast_ofNat (n := 2), ← Nat.cast_pow, nearestWhole_natCast] at h

@[simp] theorem nearest_zero : nearest 0 = 0 := by
  have hzero : nearestWhole 0 = 0 := by exact_mod_cast nearestWhole_natCast 0
  rw [nearest, zero_div, hzero, Nat.cast_zero, zero_mul]

theorem nearest_nonneg (q : ℚ) : 0 ≤ nearest q := by
  unfold nearest
  positivity

theorem carry_eq (e : ℤ) : ((2 ^ 52 : ℕ) : ℚ) * 2 ^ (e + 1) = (2 ^ 53 : ℕ) * 2 ^ e := by
  rw [zpow_add_one₀ (by norm_num)]
  push_cast
  ring

theorem nearest_mono (ha : 0 ≤ a) (h : a ≤ b) : nearest a ≤ nearest b := by
  rcases ha.eq_or_lt with rfl | ha
  · rw [nearest_zero]
    exact nearest_nonneg b
  rcases (place_mono ha h).eq_or_lt with hplace | hplace
  · unfold nearest
    rw [← hplace]
    have hwhole := nearestWhole_mono (div_le_div_of_nonneg_right h (by positivity : (0 : ℚ) ≤ 2 ^ place a))
    gcongr
  · have hleast : -1074 < place b := (le_max_right _ _).trans_lt hplace
    have hlow := nearestWhole_place_le a
    have hhigh := le_nearestWhole_place (ha.trans_le h) hleast
    calc
      nearest a ≤ (2 ^ 53 : ℕ) * 2 ^ place a := by unfold nearest; gcongr
      _ = (2 ^ 52 : ℕ) * 2 ^ (place a + 1) := (carry_eq _).symm
      _ ≤ (2 ^ 52 : ℕ) * 2 ^ place b := by
        gcongr
        · norm_num
        · exact hplace
      _ ≤ nearest b := by unfold nearest; gcongr

theorem nearest_of_fits {m : ℕ} {e : ℤ} (hm : m < 2 ^ 53) (he : -1074 ≤ e) :
    nearest (m * 2 ^ e) = m * 2 ^ e := by
  rcases Nat.eq_zero_or_pos m with rfl | hpos
  · rw [Nat.cast_zero, zero_mul, nearest_zero]
  have hplace : place (m * 2 ^ e) ≤ e := by
    have hlog : Int.log 2 ((m : ℚ) * 2 ^ e) < 53 + e := by
      rw [← Int.lt_zpow_iff_log_lt (by norm_num) (by positivity), Nat.cast_ofNat, zpow_add₀ (by norm_num)]
      gcongr
      exact_mod_cast hm
    unfold place
    omega
  have hwhole : (m : ℚ) * 2 ^ e / 2 ^ place (m * 2 ^ e) =
      (m * 2 ^ (e - place (m * 2 ^ e)).toNat : ℕ) := by
    rw [Nat.cast_mul, Nat.cast_pow, ← zpow_natCast, Int.toNat_of_nonneg (by omega), Nat.cast_ofNat,
      zpow_sub₀ (by norm_num), mul_div_assoc]
  rw [nearest, hwhole, nearestWhole_natCast, ← hwhole, div_mul_cancel₀ _ (by positivity)]

theorem place_eq {q : ℚ} {n : ℕ} {e : ℤ} (hq : 0 < q) (hlow : n ≤ q) (hhigh : q < n + 1)
    (hroom : 2 ^ 52 ≤ n ∨ e ≤ -1074) : place (q * 2 ^ e) = max (n.log2 + e - 52) (-1074) := by
  have hpos : 0 < q * 2 ^ e := by positivity
  rcases Nat.eq_zero_or_pos n with rfl | hn
  · have hless : Int.log 2 (q * 2 ^ e) < e := by
      rw [← Int.lt_zpow_iff_log_lt (by norm_num) hpos, Nat.cast_ofNat]
      have hone : q < 1 := by simpa using hhigh
      exact mul_lt_of_lt_one_left (by positivity) hone
    rw [Nat.log2_zero]
    unfold place
    omega
  have hupper : Int.log 2 (q * 2 ^ e) < n.log2 + 1 + e := by
    rw [← Int.lt_zpow_iff_log_lt (by norm_num) hpos, Nat.cast_ofNat, zpow_add₀ (by norm_num)]
    have hbits : (n : ℚ) + 1 ≤ 2 ^ (n.log2 + 1) := by exact_mod_cast Nat.lt_log2_self (n := n)
    gcongr
    exact_mod_cast hhigh.trans_le hbits
  have hlower : n.log2 + e ≤ Int.log 2 (q * 2 ^ e) := by
    rw [← Int.zpow_le_iff_le_log (by norm_num) hpos, Nat.cast_ofNat, zpow_add₀ (by norm_num)]
    have hbits : (2 : ℚ) ^ n.log2 ≤ n := by exact_mod_cast Nat.log2_self_le hn.ne'
    gcongr
    exact_mod_cast hbits.trans hlow
  unfold place
  omega

end Nearest

end Advisor.Number

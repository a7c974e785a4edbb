import Advisor.Proofs.Number.Packing

/-!
Arithmetic on doubles that are not negative: a product or a quotient is the double nearest to what it would
be, and infinite where there is none so great.
-/

namespace Advisor.Number

open Float.Model UnpackedFloat

section Operations

variable {u u' : UnpackedFloat} {v v' : WithTop ℚ} {a d : ℚ}

theorem reads_pack_zero : Reads (Float.Model.pack (.zero .positive)).unpack 0 := .zero

theorem reads_pack_infinity : Reads (Float.Model.pack (.infinity .positive)).unpack ⊤ := .infinity

theorem reads_one : Reads (Float.ofBits 4607182418800017408).toModel.unpack ((1 : ℚ) : WithTop ℚ) := by
  have hone : (Float.ofBits 4607182418800017408).toModel.unpack =
      .finite .positive (2 ^ 52) (-52) (by norm_num) := rfl
  have hvalue : (1 : ℚ) = (2 ^ 52 : ℕ) * 2 ^ (-52 : ℤ) := by norm_num
  rw [hone, hvalue]
  exact .finite _ (by norm_num) (by norm_num) (by norm_num) (.inl le_rfl)

theorem rounded_zero : rounded 0 = 0 := by
  change (if nearest 0 < 2 ^ 1024 then ((nearest 0 : ℚ) : WithTop ℚ) else ⊤) = 0
  rw [nearest_zero, if_pos (by norm_num)]
  rfl

theorem cut_exact (m : ℕ) : Cut m (.ofMantissaAndAccuracy m .exact) := rfl

theorem reads_normalize (n : ℕ) :
    Reads (Float.Model.pack (UnpackedFloat.normalize .binary64 n 0 .positive)).unpack (rounded ((n : ℚ) : WithTop ℚ)) := by
  rcases Nat.eq_zero_or_pos n with rfl | hpos
  · have hzero : ((0 : ℕ) : ℚ) = 0 := Nat.cast_zero
    rw [hzero, WithTop.coe_zero, rounded_zero]
    exact reads_pack_zero
  have htarget : Format.binary64.targetExponent (totalExponent n 0) = n.log2 - 52 := by
    rw [targetExponent_eq]
    omega
  have hnormalize : UnpackedFloat.normalize .binary64 n 0 .positive = roundWithAccuracy .binary64 .positive
      (n <<< (0 - (n.log2 - 52 : ℤ)).toNat) (0 - (0 - (n.log2 - 52 : ℤ)).toNat) .exact := by
    have hcompare : compare (n : ℤ) 0 = .gt := Int.compare_eq_gt.2 (by exact_mod_cast hpos)
    rw [UnpackedFloat.normalize, hcompare]
    simp only [UnpackedFloat.round, decreaseExponent, Int.toNat_natCast, htarget]
  generalize hshift : (0 - (n.log2 - 52 : ℤ)).toNat = shift at hnormalize
  have hbits : 2 ^ 52 ≤ n <<< shift := by
    rw [Nat.shiftLeft_eq]
    calc
      2 ^ 52 ≤ 2 ^ (n.log2 + shift) := Nat.pow_le_pow_right (by norm_num) (by omega)
      _ = 2 ^ n.log2 * 2 ^ shift := Nat.pow_add ..
      _ ≤ n * 2 ^ shift := Nat.mul_le_mul_right _ (Nat.log2_self_le hpos.ne')
  have hround := reads_round (e := 0 - shift) (cut_exact (n <<< shift)) (by exact_mod_cast by omega)
    (.inl hbits)
  have hvalue : ((n <<< shift : ℕ) : ℚ) * 2 ^ (0 - shift : ℤ) = n := by
    rw [Nat.shiftLeft_eq, zero_sub, zpow_neg, zpow_natCast, Nat.cast_mul, Nat.cast_pow, Nat.cast_ofNat,
      mul_assoc, mul_inv_cancel₀ (by positivity), mul_one]
  rw [hvalue] at hround
  rwa [hnormalize]

theorem reads_mul (h : Reads u (a : WithTop ℚ)) (ha : 0 < a) (h' : Reads u' v) :
    Reads (Float.Model.pack (UnpackedFloat.mul .binary64 u u')).unpack (rounded (v.map (a * ·))) := by
  generalize hvalue : (a : WithTop ℚ) = value at h
  cases h with
  | zero =>
      rw [WithTop.coe_eq_zero.1 hvalue] at ha
      exact absurd ha (lt_irrefl 0)
  | infinity => cases hvalue
  | @finite m e hpos hm hlow hhigh hfull =>
      obtain rfl := WithTop.coe_injective hvalue
      cases h' with
      | zero =>
          change Reads _ (rounded ((_ * 0 : ℚ) : WithTop ℚ))
          rw [mul_zero, WithTop.coe_zero, rounded_zero]
          exact reads_pack_zero
      | infinity => exact reads_pack_infinity
      | @finite m' e' hpos' hm' hlow' hhigh' hfull' =>
          have hroom : 2 ^ 52 ≤ m * m' ∨ e + e' ≤ -1074 := by
            rcases hfull with hfull | rfl
            · exact .inl (hfull.trans (Nat.le_mul_of_pos_right m hpos'))
            rcases hfull' with hfull' | rfl
            · exact .inl (hfull'.trans (Nat.le_mul_of_pos_left m' hpos))
            · exact .inr (by norm_num)
          have hround := reads_round (cut_exact (m * m')) (by exact_mod_cast Nat.mul_pos hpos hpos') hroom
          have hproduct : ((m * m' : ℕ) : ℚ) * 2 ^ (e + e') = m * 2 ^ e * (m' * 2 ^ e') := by
            rw [Nat.cast_mul, zpow_add₀ (by norm_num)]
            ring
          rw [hproduct] at hround
          exact hround

theorem cut_div (n : ℕ) {k : ℕ} (hk : 0 < k) :
    Cut ((n : ℚ) / k) (.ofMantissaAndAccuracy (n / k) (accuracyOfFraction (n % k) k)) := by
  have hpos : (0 : ℚ) < k := by exact_mod_cast hk
  have hsplit : (n : ℚ) / k = (n / k : ℕ) + ((n % k : ℕ) : ℚ) / k := by
    have hdiv : (k : ℚ) * (n / k : ℕ) + (n % k : ℕ) = n := by exact_mod_cast Nat.div_add_mod n k
    field_simp
    linarith
  have hrest : ((n % k : ℕ) : ℚ) / k < 1 := by
    rw [div_lt_one hpos]
    exact_mod_cast Nat.mod_lt n hk
  unfold accuracyOfFraction
  generalize (n / k : ℕ) = quotient at *
  generalize (n % k : ℕ) = rest at *
  rw [hsplit]
  split
  · rename_i hzero
    rw [hzero, Nat.cast_zero, zero_div, add_zero]
    exact cut_exact quotient
  rename_i hne
  have hsome : (0 : ℚ) < rest / k := div_pos (by exact_mod_cast Nat.pos_of_ne_zero hne) hpos
  have hdouble : (rest : ℚ) / k - 1 / 2 = ((2 * rest : ℕ) - k) / (2 * k) := by
    push_cast
    field_simp
  rcases lt_trichotomy (2 * rest) k with hhalf | hhalf | hhalf
  · have hless : (rest : ℚ) / k - 1 / 2 < 0 := by
      rw [hdouble]
      exact div_neg_of_neg_of_pos (sub_neg.2 (by exact_mod_cast hhalf)) (by positivity)
    rw [Nat.compare_eq_lt.2 hhalf]
    exact ⟨by linarith, by linarith⟩
  · have heq : (rest : ℚ) / k - 1 / 2 = 0 := by rw [hdouble, hhalf, sub_self, zero_div]
    rw [Nat.compare_eq_eq.2 hhalf]
    change _ = (quotient : ℚ) + 1 / 2
    linarith
  · have hmore : 0 < (rest : ℚ) / k - 1 / 2 := by
      rw [hdouble]
      exact div_pos (sub_pos.2 (by exact_mod_cast hhalf)) (by positivity)
    rw [Nat.compare_eq_gt.2 hhalf]
    exact ⟨by linarith, by linarith⟩

theorem exists_divCore {m m' : ℕ} (hpos : 0 < m) (hpos' : 0 < m') (e e' : ℤ) :
    ∃ (shift : ℕ) (f : ℤ), divCore .binary64 m e m' e' =
        ((m <<< shift) / m', f, accuracyOfFraction ((m <<< shift) % m') m') ∧
      f + shift = e - e' ∧ (2 ^ 52 ≤ (m <<< shift) / m' ∨ f ≤ -1074) := by
  have htarget : Format.binary64.targetExponent (totalExponent m e - totalExponent m' e') =
      max (m.log2 + e - (m'.log2 + e') - 53) (-1074) := by
    simp only [Format.targetExponent, totalExponent, Format.mantissaBits, Format.minExponent]
    norm_num
    omega
  refine ⟨_, _, rfl, ?_, ?_⟩
  · rw [htarget]
    omega
  rw [htarget]
  generalize hf : min (e - e') (max (m.log2 + e - (m'.log2 + e') - 53) (-1074)) = f
  by_cases hleast : f ≤ -1074
  · exact .inr hleast
  refine .inl ((Nat.le_div_iff_mul_le hpos').2 ?_)
  rw [Nat.shiftLeft_eq]
  calc
    2 ^ 52 * m' ≤ 2 ^ 52 * 2 ^ (m'.log2 + 1) := Nat.mul_le_mul_left _ Nat.lt_log2_self.le
    _ = 2 ^ (52 + (m'.log2 + 1)) := (Nat.pow_add ..).symm
    _ ≤ 2 ^ (m.log2 + (e - e' - f).toNat) := Nat.pow_le_pow_right (by norm_num) (by omega)
    _ = 2 ^ m.log2 * 2 ^ (e - e' - f).toNat := Nat.pow_add ..
    _ ≤ m * 2 ^ (e - e' - f).toNat := Nat.mul_le_mul_right _ (Nat.log2_self_le hpos.ne')

theorem reads_div (h : Reads u v) (h' : Reads u' (d : WithTop ℚ)) (hd : 0 < d) :
    Reads (Float.Model.pack (UnpackedFloat.div .binary64 u u')).unpack (rounded (v.map (· / d))) := by
  generalize hvalue : (d : WithTop ℚ) = value at h'
  cases h' with
  | zero =>
      rw [WithTop.coe_eq_zero.1 hvalue] at hd
      exact absurd hd (lt_irrefl 0)
  | infinity => cases hvalue
  | @finite m' e' hpos' hm' hlow' hhigh' hfull' =>
      obtain rfl := WithTop.coe_injective hvalue
      cases h with
      | zero =>
          change Reads _ (rounded ((0 / _ : ℚ) : WithTop ℚ))
          rw [zero_div, WithTop.coe_zero, rounded_zero]
          exact reads_pack_zero
      | infinity => exact reads_pack_infinity
      | @finite m e hpos hm hlow hhigh hfull =>
          obtain ⟨shift, f, hcore, hshift, hroom⟩ := exists_divCore hpos hpos' e e'
          have hdividend : (((m <<< shift : ℕ)) : ℚ) = m * 2 ^ shift := by
            rw [Nat.shiftLeft_eq, Nat.cast_mul, Nat.cast_pow, Nat.cast_ofNat]
          have hpositive : (0 : ℚ) < (m <<< shift : ℕ) / m' := by
            rw [hdividend]
            positivity
          have hround := reads_round (cut_div (m <<< shift) hpos') hpositive hroom
          have hquotient : ((m <<< shift : ℕ) : ℚ) / m' * 2 ^ f = m * 2 ^ e / (m' * 2 ^ e') := by
            have hpower : (2 : ℚ) ^ f * 2 ^ shift = 2 ^ e / 2 ^ e' := by
              rw [← zpow_natCast, ← zpow_add₀ (by norm_num), hshift, zpow_sub₀ (by norm_num)]
            rw [hdividend, mul_div_mul_comm, ← hpower]
            ring
          rw [hquotient] at hround
          simp only [UnpackedFloat.div, hcore]
          exact hround

end Operations

section Order

variable {u u' : UnpackedFloat} {v v' : WithTop ℚ} {m m' : ℕ} {e e' : ℤ}

theorem finite_lt (hm : m < 2 ^ 53) (hlow : -1074 ≤ e) (hfull : 2 ^ 52 ≤ m' ∨ e' = -1074) (he : e < e') :
    (m : ℚ) * 2 ^ e < m' * 2 ^ e' := by
  have hnormal : 2 ^ 52 ≤ m' := hfull.resolve_right (by omega)
  calc
    (m : ℚ) * 2 ^ e < (2 ^ 53 : ℕ) * 2 ^ e := by gcongr
    _ = (2 ^ 52 : ℕ) * 2 ^ (e + 1) := (carry_eq e).symm
    _ ≤ m' * 2 ^ e' := by
      gcongr
      · norm_num
      · exact he

theorem finite_pos (hpos : 0 < m) : (0 : WithTop ℚ) < ((m * 2 ^ e : ℚ) : WithTop ℚ) := by
  rw [← WithTop.coe_zero, WithTop.coe_lt_coe]
  positivity

theorem compare_finite (hm : m < 2 ^ 53) (hm' : m' < 2 ^ 53) (hlow : -1074 ≤ e) (hlow' : -1074 ≤ e')
    (hfull : 2 ^ 52 ≤ m ∨ e = -1074) (hfull' : 2 ^ 52 ≤ m' ∨ e' = -1074) :
    (compare e e').then (compare m m') =
      cmp ((m * 2 ^ e : ℚ) : WithTop ℚ) ((m' * 2 ^ e' : ℚ) : WithTop ℚ) := by
  rcases lt_trichotomy e e' with he | rfl | he
  · rw [(cmp_eq_lt_iff _ _).2 (WithTop.coe_lt_coe.2 (finite_lt hm hlow hfull' he)), Int.compare_eq_lt.2 he]
    rfl
  · have hmore {k k' : ℕ} (h : k < k') : ((k * 2 ^ e : ℚ) : WithTop ℚ) < ((k' * 2 ^ e : ℚ) : WithTop ℚ) :=
      WithTop.coe_lt_coe.2 (mul_lt_mul_of_pos_right (by exact_mod_cast h) (by positivity))
    rw [Int.compare_eq_eq.2 rfl]
    rcases lt_trichotomy m m' with hm | rfl | hm
    · rw [(cmp_eq_lt_iff _ _).2 (hmore hm), Nat.compare_eq_lt.2 hm]
      rfl
    · rw [cmp_self_eq_eq, Nat.compare_eq_eq.2 rfl]
      rfl
    · rw [(cmp_eq_gt_iff _ _).2 (hmore hm), Nat.compare_eq_gt.2 hm]
      rfl
  · rw [(cmp_eq_gt_iff _ _).2 (WithTop.coe_lt_coe.2 (finite_lt hm' hlow' hfull he)), Int.compare_eq_gt.2 he]
    rfl

theorem reads_compare (h : Reads u v) (h' : Reads u' v') : u.compare u' = some (cmp v v') := by
  cases h with
  | zero =>
      cases h' with
      | zero => rw [cmp_self_eq_eq]; rfl
      | finite hpos => rw [(cmp_eq_lt_iff _ _).2 (finite_pos hpos)]; rfl
      | infinity => rfl
  | infinity =>
      cases h' with
      | zero => rfl
      | finite hpos => rw [(cmp_eq_gt_iff _ _).2 (WithTop.coe_lt_top _)]; rfl
      | infinity => rfl
  | finite hpos hm hlow hhigh hfull =>
      cases h' with
      | zero => rw [(cmp_eq_gt_iff _ _).2 (finite_pos hpos)]; rfl
      | infinity => rw [(cmp_eq_lt_iff _ _).2 (WithTop.coe_lt_top _)]; rfl
      | finite hpos' hm' hlow' hhigh' hfull' =>
          exact congrArg some (compare_finite hm hm' hlow hlow' hfull hfull')

theorem reads_le (h : Reads u v) (h' : Reads u' v') : u.le u' ↔ v ≤ v' := by
  rw [UnpackedFloat.le, reads_compare h h', Option.any_some]
  rcases lt_trichotomy v v' with hlt | rfl | hgt
  · simp [(cmp_eq_lt_iff _ _).2 hlt, hlt.le]
  · simp
  · simp [(cmp_eq_gt_iff _ _).2 hgt, hgt.not_ge]

theorem reads_lt (h : Reads u v) (h' : Reads u' v') : u.lt u' ↔ v < v' := by
  rw [UnpackedFloat.lt, reads_compare h h', ← cmp_eq_lt_iff]
  simp

/-- The whole part, as far as a word of 64 bits goes. -/
def whole : WithTop ℚ → ℕ
  | ⊤ => 2 ^ 64 - 1
  | (q : ℚ) => min ⌊q⌋₊ (2 ^ 64 - 1)

theorem whole_mono (h : v ≤ v') : whole v ≤ whole v' := by
  match v, v', h with
  | ⊤, ⊤, _ => exact le_rfl
  | (q : ℚ), ⊤, _ => exact min_le_right _ _
  | ⊤, (q : ℚ), h => exact absurd h (WithTop.coe_lt_top q).not_ge
  | (q : ℚ), (q' : ℚ), h => exact min_le_min_right _ (Nat.floor_mono (WithTop.coe_le_coe.1 h))

theorem toNat_ofNatClamp (n : ℕ) : (UInt64.ofNatClamp n).toNat = min n (2 ^ 64 - 1) := by
  unfold UInt64.ofNatClamp
  split
  · rename_i h
    exact (min_eq_left (Nat.le_sub_one_of_lt h)).symm
  · rename_i h
    exact (min_eq_right (Nat.sub_le_of_le_add (Nat.le_succ_of_le (Nat.le_of_not_lt h)))).symm

theorem roundToInt_eq (m : ℕ) (e : ℤ) : roundToInt .positive m e = ⌊(m : ℚ) * 2 ^ e⌋₊ := by
  have hcut := (cut_exact (m <<< (e - 0).toNat)).shiftRight (0 - (e - (e - 0).toNat)).toNat
  have hvalue : ((m <<< (e - 0).toNat : ℕ) : ℚ) / 2 ^ (0 - (e - (e - 0).toNat)).toNat = m * 2 ^ e := by
    rw [Nat.shiftLeft_eq, Nat.cast_mul, Nat.cast_pow, Nat.cast_ofNat, ← zpow_natCast, ← zpow_natCast,
      mul_div_assoc, ← zpow_sub₀ (by norm_num)]
    congr 2
    omega
  rw [hvalue] at hcut
  exact congrArg _ hcut.floor.symm

theorem reads_toUInt64 (h : Reads u v) : u.toUInt64.toNat = whole v := by
  rw [UnpackedFloat.toUInt64, toNat_ofNatClamp]
  cases h with
  | zero => simp [toInt, whole]
  | infinity => rfl
  | @finite m e hpos hm hlow hhigh hfull =>
      rw [toInt, roundToInt_eq, Int.toNat_natCast]
      rfl

end Order

section Rounded

variable {v v' : WithTop ℚ} {n : ℕ}

theorem rounded_nonneg (v : WithTop ℚ) : 0 ≤ rounded v := by
  match v with
  | ⊤ => exact le_top
  | (q : ℚ) =>
      change 0 ≤ if nearest q < 2 ^ 1024 then ((nearest q : ℚ) : WithTop ℚ) else ⊤
      split
      · exact WithTop.coe_le_coe.2 (nearest_nonneg q)
      · exact le_top

theorem rounded_mono (hv : 0 ≤ v) (h : v ≤ v') : rounded v ≤ rounded v' := by
  match v, v', h with
  | v, ⊤, _ => exact le_top
  | ⊤, (q : ℚ), h => exact absurd h (WithTop.coe_lt_top q).not_ge
  | (q : ℚ), (q' : ℚ), h =>
      have hnearest := nearest_mono (WithTop.coe_le_coe.1 hv) (WithTop.coe_le_coe.1 h)
      change (if nearest q < 2 ^ 1024 then ((nearest q : ℚ) : WithTop ℚ) else ⊤) ≤
        if nearest q' < 2 ^ 1024 then ((nearest q' : ℚ) : WithTop ℚ) else ⊤
      by_cases hless : nearest q' < 2 ^ 1024
      · rw [if_pos hless, if_pos (hnearest.trans_lt hless)]
        exact WithTop.coe_le_coe.2 hnearest
      · rw [if_neg hless]
        exact le_top

theorem rounded_natCast (h : n < 2 ^ 53) : rounded ((n : ℚ) : WithTop ℚ) = ((n : ℚ) : WithTop ℚ) := by
  have hself : nearest n = n := by simpa using nearest_of_fits (e := 0) h (by norm_num)
  have hless : (n : ℚ) < 2 ^ 1024 := by
    calc
      (n : ℚ) < 2 ^ 53 := by exact_mod_cast h
      _ ≤ 2 ^ 1024 := by gcongr <;> norm_num
  change (if nearest n < 2 ^ 1024 then ((nearest n : ℚ) : WithTop ℚ) else ⊤) = _
  rw [hself, if_pos hless]

theorem rounded_natCast_mono {n' : ℕ} (h : n ≤ n') :
    rounded ((n : ℚ) : WithTop ℚ) ≤ rounded ((n' : ℚ) : WithTop ℚ) :=
  rounded_mono (WithTop.coe_le_coe.2 (Nat.cast_nonneg n)) (WithTop.coe_le_coe.2 (by exact_mod_cast h))

theorem map_nonneg {f : ℚ → ℚ} (hf : Monotone f) (hzero : f 0 = 0) (hv : 0 ≤ v) : 0 ≤ v.map f := by
  have h := hf.withTop_map hv
  rw [← WithTop.coe_zero, WithTop.map_coe, hzero] at h
  exact h

theorem rounded_map_mono {f : ℚ → ℚ} (hf : Monotone f) (hzero : f 0 = 0) (hv : 0 ≤ v) (h : v ≤ v') :
    rounded (v.map f) ≤ rounded (v'.map f) :=
  rounded_mono (map_nonneg hf hzero hv) (hf.withTop_map h)

/-- The least whole number that is not less, as far as a word of 64 bits goes. -/
def wholeAbove (v : WithTop ℚ) : ℕ :=
  if rounded ((whole v : ℚ) : WithTop ℚ) < v then min (whole v + 1) (2 ^ 64 - 1) else whole v

theorem whole_le_wholeAbove (v : WithTop ℚ) : whole v ≤ wholeAbove v := by
  have hword : whole v ≤ 2 ^ 64 - 1 := by
    cases v with
    | top => exact le_rfl
    | coe q => exact min_le_right _ _
  unfold wholeAbove
  split
  · exact le_min (Nat.le_succ _) hword
  · exact le_rfl

theorem wholeAbove_mono (h : v ≤ v') : wholeAbove v ≤ wholeAbove v' := by
  rcases (whole_mono h).eq_or_lt with heq | hlt
  · by_cases hless : rounded ((whole v : ℚ) : WithTop ℚ) < v
    · rw [wholeAbove, wholeAbove, ← heq, if_pos hless, if_pos (hless.trans_le h)]
    · rw [wholeAbove, if_neg hless, heq]
      exact whole_le_wholeAbove v'
  · have hstep : wholeAbove v ≤ whole v + 1 := by
      unfold wholeAbove
      split
      · exact min_le_left _ _
      · exact Nat.le_succ _
    exact hstep.trans (hlt.trans_le (whole_le_wholeAbove v'))

end Rounded

section Holds

variable {x y : Float} {v w : WithTop ℚ} {a d : ℚ}

/-- The number that a double is, if it is not negative. -/
def Holds (x : Float) (v : WithTop ℚ) : Prop :=
  Reads x.toModel.unpack v

theorem Holds.mul (hx : Holds x (a : WithTop ℚ)) (ha : 0 < a) (hy : Holds y v) :
    Holds (x * y) (rounded (v.map (a * ·))) :=
  reads_mul hx ha hy

theorem Holds.div (hx : Holds x v) (hy : Holds y (d : WithTop ℚ)) (hd : 0 < d) :
    Holds (x / y) (rounded (v.map (· / d))) :=
  reads_div hx hy hd

theorem Holds.le_iff (hx : Holds x v) (hy : Holds y w) : x ≤ y ↔ v ≤ w := by
  change decide (x.toModel.unpack.le y.toModel.unpack = true) = true ↔ _
  rw [decide_eq_true_iff, reads_le hx hy]

theorem Holds.lt_iff (hx : Holds x v) (hy : Holds y w) : x < y ↔ v < w := by
  change decide (x.toModel.unpack.lt y.toModel.unpack = true) = true ↔ _
  rw [decide_eq_true_iff, reads_lt hx hy]

theorem Holds.toUInt64 (hx : Holds x v) : x.toUInt64.toNat = whole v :=
  reads_toUInt64 hx

theorem Holds.min (hx : Holds x v) (hy : Holds y w) : Holds (if x ≤ y then x else y) (min v w) := by
  rcases le_or_gt v w with h | h
  · rw [if_pos ((hx.le_iff hy).2 h), min_eq_left h]
    exact hx
  · rw [if_neg (mt (hx.le_iff hy).1 h.not_ge), min_eq_right h.le]
    exact hy

theorem holds_toFloat (n : UInt64) : Holds n.toFloat (rounded ((n.toNat : ℚ) : WithTop ℚ)) :=
  reads_normalize n.toNat

theorem ofScientific_eq {n : ℕ} (hpos : 0 < n) :
    UnpackedFloat.ofScientific .binary64 n 0 =
      roundWithAccuracy .binary64 .positive (n <<< 53) (-53) .exact := by
  rw [UnpackedFloat.ofScientific, dif_neg hpos.ne', if_neg (by norm_num), if_neg (by norm_num),
    if_pos le_rfl]
  simp only [UnpackedFloat.mul, Int.toNat_zero, pow_zero, mul_one, add_zero]
  rfl

theorem holds_ofNat (n : ℕ) : Holds (Float.ofNat n) (rounded ((n : ℚ) : WithTop ℚ)) := by
  change Holds (Float.ofScientific n false 0) _
  rcases Nat.eq_zero_or_pos n with rfl | hpos
  · have hzero : ((0 : ℕ) : ℚ) = 0 := Nat.cast_zero
    rw [hzero, WithTop.coe_zero, rounded_zero]
    exact .zero
  unfold Float.ofScientific
  split
  · rename_i hsmall
    have hword : n.toUInt64.toNat = n := Nat.mod_eq_of_lt (by omega)
    have hn := holds_toFloat n.toUInt64
    rw [hword, rounded_natCast hsmall.1] at hn
    have hproduct := hn.mul (by exact_mod_cast hpos) reads_one
    rw [WithTop.map_coe, mul_one] at hproduct
    exact hproduct
  · have hbits : 2 ^ 52 ≤ n <<< 53 := by
      rw [Nat.shiftLeft_eq]
      omega
    have hround := reads_round (e := -53) (cut_exact (n <<< 53)) (by exact_mod_cast by omega) (.inl hbits)
    have hvalue : ((n <<< 53 : ℕ) : ℚ) * 2 ^ (-53 : ℤ) = n := by
      rw [Nat.shiftLeft_eq, Nat.cast_mul, mul_assoc]
      norm_num
    rw [hvalue, ← ofScientific_eq hpos] at hround
    exact hround

end Holds

end Advisor.Number

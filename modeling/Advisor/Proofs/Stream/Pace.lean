import Advisor.Proofs.Number.Double
import Advisor.Stream.Relay

/-!
The progress bar in doubles: how far a turn is grows with its answer, falls as more tokens are allowed, and
stays within the span of generation.
-/

namespace Advisor.Stream

open Advisor.Number

section Doubles

variable {x : Float} {v : WithTop ℚ}

theorem double_ceil (hx : Holds x v) : Gauge.double.ceil x = wholeAbove v := by
  have hwhole := holds_toFloat x.toUInt64
  rw [hx.toUInt64] at hwhole
  change (if x.toUInt64.toFloat < x then min (x.toUInt64.toNat + 1) _ else x.toUInt64.toNat) = _
  rw [hx.toUInt64, wholeAbove]
  simp only [hwhole.lt_iff hx]
  rfl

theorem holds_runesPerToken : ∃ d : ℚ, 0 < d ∧ Holds Gauge.double.runesPerToken (d : WithTop ℚ) := by
  have hunpack : Gauge.double.runesPerToken.toModel.unpack =
      .finite .positive 8106479329266893 (-51) (by norm_num) := rfl
  refine ⟨(8106479329266893 : ℕ) * 2 ^ (-51 : ℤ), by positivity, ?_⟩
  rw [Holds, hunpack]
  exact .finite _ (by norm_num) (by norm_num) (by norm_num) (.inl (by norm_num))

end Doubles

section Tokens

theorem tokens_mono : Monotone Gauge.double.tokens := by
  intro runes runes' h
  obtain ⟨d, hd, hper⟩ := holds_runesPerToken
  have hdiv : Monotone fun q : ℚ => q / d := monotone_div_right_of_nonneg hd.le
  have htokens (n : ℕ) := double_ceil ((holds_ofNat n).div hper hd)
  change Gauge.double.ceil (Float.ofNat runes / _) ≤ Gauge.double.ceil (Float.ofNat runes' / _)
  rw [htokens, htokens]
  exact wholeAbove_mono (rounded_map_mono hdiv (zero_div d) (rounded_nonneg _) (rounded_natCast_mono h))

theorem budget_mono : Monotone Gauge.budget :=
  fun _ _ h => min_le_min_right 6000 (max_le_max_right 500 h)

theorem budget_bounds (maxTokens : ℕ) : 500 ≤ Gauge.budget maxTokens ∧ Gauge.budget maxTokens ≤ 6000 :=
  ⟨le_min (le_max_right _ _) (by norm_num), min_le_right _ _⟩

end Tokens

section Share

/-- The part of the span that so many tokens fill of a budget, and perhaps more than all of it. -/
def filled (tokens budget : ℕ) : WithTop ℚ :=
  rounded ((rounded ((rounded ((tokens : ℚ) : WithTop ℚ)).map (generationSpan * ·))).map (· / (budget : ℚ)))

variable {tokens tokens' budget budget' : ℕ}

theorem filled_mono (h : tokens ≤ tokens') : filled tokens budget ≤ filled tokens' budget := by
  have hmul : Monotone fun q : ℚ => generationSpan * q := monotone_mul_left_of_nonneg (Nat.cast_nonneg _)
  have hdiv : Monotone fun q : ℚ => q / budget := monotone_div_right_of_nonneg (Nat.cast_nonneg budget)
  have hscaled := rounded_map_mono hmul (mul_zero _) (rounded_nonneg _) (rounded_natCast_mono h)
  exact rounded_map_mono hdiv (zero_div _) (rounded_nonneg _) hscaled

theorem filled_antitone (hpos : 0 < budget) (h : budget ≤ budget') :
    filled tokens budget' ≤ filled tokens budget := by
  have hdiv : Monotone fun q : ℚ => q / budget' := monotone_div_right_of_nonneg (Nat.cast_nonneg budget')
  have hless (v : WithTop ℚ) (hv : 0 ≤ v) : v.map (· / (budget' : ℚ)) ≤ v.map (· / (budget : ℚ)) := by
    cases v with
    | top => exact le_rfl
    | coe q =>
        have hq : 0 ≤ q := WithTop.coe_le_coe.1 hv
        exact WithTop.coe_le_coe.2
          (div_le_div_of_nonneg_left hq (by exact_mod_cast hpos) (by exact_mod_cast h))
  exact rounded_mono (map_nonneg hdiv (zero_div _) (rounded_nonneg _)) (hless _ (rounded_nonneg _))

theorem share_eq (runes maxTokens : ℕ) :
    Gauge.double.share runes maxTokens =
      whole (min (filled (Gauge.double.tokens runes) (Gauge.budget maxTokens))
        ((generationSpan : ℚ) : WithTop ℚ)) := by
  obtain ⟨hleast, hmost⟩ := budget_bounds maxTokens
  have hspan := holds_ofNat generationSpan
  rw [rounded_natCast (by decide)] at hspan
  have hbudget := holds_ofNat (Gauge.budget maxTokens)
  rw [rounded_natCast (by omega)] at hbudget
  have hpos : (0 : ℚ) < Gauge.budget maxTokens := by exact_mod_cast (by omega)
  have hscaled := hspan.mul (by norm_num [generationSpan]) (holds_ofNat (Gauge.double.tokens runes))
  exact ((hscaled.div hbudget hpos).min hspan).toUInt64

theorem share_mono (maxTokens : ℕ) : Monotone (Gauge.double.share · maxTokens) := by
  intro runes runes' h
  simp only [share_eq]
  exact whole_mono (min_le_min_right _ (filled_mono (tokens_mono h)))

theorem share_antitone (runes : ℕ) : Antitone (Gauge.double.share runes) := by
  intro maxTokens maxTokens' h
  simp only [share_eq]
  have hpos : 0 < Gauge.budget maxTokens := (budget_bounds maxTokens).1.trans_lt' (by norm_num)
  exact whole_mono (min_le_min_right _ (filled_antitone hpos (budget_mono h)))

theorem share_le (runes maxTokens : ℕ) : Gauge.double.share runes maxTokens ≤ generationSpan := by
  rw [share_eq]
  refine (whole_mono (min_le_right _ _)).trans ?_
  exact (min_le_left _ _).trans_eq (Nat.floor_natCast generationSpan)

end Share

/-- A pace that never falls and stays within the span of generation. -/
structure Steady (pace : ℕ → ℕ) : Prop where
  mono : Monotone pace
  starts : ∀ runes, generationStart ≤ pace runes
  ends : ∀ runes, pace runes ≤ generationStart + generationSpan

theorem paceOf_steady (maxTokens : ℕ) : Steady (paceOf maxTokens) where
  mono _ _ h := Nat.add_le_add_left (share_mono maxTokens h) generationStart
  starts _ := Nat.le_add_right ..
  ends runes := Nat.add_le_add_left (share_le runes maxTokens) generationStart

theorem paceOf_antitone (runes : ℕ) : Antitone (paceOf · runes) :=
  fun _ _ h => Nat.add_le_add_left (share_antitone runes h) generationStart

theorem toNat_progress (runes maxTokens : ℕ) :
    (UInt8.ofNat generationStart + UInt8.ofNat (Gauge.double.share runes maxTokens)).toNat =
      paceOf maxTokens runes := by
  have hle := share_le runes maxTokens
  change _ = generationStart + Gauge.double.share runes maxTokens
  simp only [generationStart, generationSpan] at hle ⊢
  rw [UInt8.toNat_add, UInt8.toNat_ofNat', UInt8.toNat_ofNat']
  omega

end Advisor.Stream

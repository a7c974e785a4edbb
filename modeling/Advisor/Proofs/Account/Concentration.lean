import Advisor.Proofs.Account.Conservation
import Mathlib.Algebra.Order.BigOperators.Group.List
import Mathlib.Algebra.Order.Field.Basic
import Mathlib.Algebra.Order.Ring.Rat
import Mathlib.Data.Finset.Card
import Mathlib.Tactic.Linarith

/-!
The risk of an account is that of its concentration: the more there is of the top item, the greater it is.
-/

namespace Advisor.Account

-- sums and products are written in the operations of the field
attribute [-instance] Amount.toAdd Amount.toSub Amount.toMul Amount.toDiv

variable {K : Type} [Field K] [LinearOrder K]

def totalOf (entries : List (Turnover K)) : K :=
  (entries.map (·.turnover)).sum

omit [LinearOrder K] in
theorem totalOf_cons (e : Turnover K) (rest : List (Turnover K)) :
    totalOf (e :: rest) = e.turnover + totalOf rest := List.sum_cons

theorem topShare_exact (top : Turnover K) (rest : List (Turnover K)) :
    topShare (top :: rest) =
      if 0 < totalOf (top :: rest) then top.turnover / totalOf (top :: rest) * 100 else 0 := by
  have hpositive (x : K) : Amount.positive x = decide (0 < x) := rfl
  have hzero : Amount.ofNat 0 = (0 : K) := Nat.cast_zero
  have hhundred : Amount.ofNat 100 = (100 : K) := Nat.cast_ofNat
  simp only [topShare_cons, sum_exact, hpositive, decide_eq_true_eq, hzero, hhundred]
  rfl

section Share

variable [IsStrictOrderedRing K] {items rest : List (Turnover K)} {top e : Turnover K} {x : K}

theorem turnover_le_total (hitems : ∀ e ∈ items, 0 ≤ e.turnover) (he : e ∈ items) :
    e.turnover ≤ totalOf items := by
  refine List.single_le_sum (fun x hx => ?_) _ (List.mem_map_of_mem he)
  obtain ⟨e, he, rfl⟩ := List.mem_map.1 hx
  exact hitems e he

theorem topShare_bounds (hitems : ∀ e ∈ items, 0 ≤ e.turnover) :
    0 ≤ topShare items ∧ topShare items ≤ 100 := by
  cases items with
  | nil =>
      have hnil : topShare ([] : List (Turnover K)) = 0 := Nat.cast_zero
      rw [hnil]
      exact ⟨le_refl _, by norm_num⟩
  | cons top rest =>
      have htop := hitems top (.head _)
      have hle := turnover_le_total hitems (.head _)
      rw [topShare_exact]
      split
      · rename_i htotal
        have hratio : top.turnover / totalOf (top :: rest) ≤ 1 := (div_le_one htotal).2 hle
        exact ⟨by positivity, by linarith⟩
      · exact ⟨le_refl _, by norm_num⟩

theorem le_topShare (htop : ∀ e ∈ top :: rest, e.turnover ≤ top.turnover)
    (htotal : 0 < totalOf (top :: rest)) :
    100 / ((top :: rest).length : K) ≤ topShare (top :: rest) := by
  have hle : totalOf (top :: rest) ≤ (top :: rest).length * top.turnover := by
    have hcard := List.sum_le_card_nsmul ((top :: rest).map (·.turnover)) top.turnover
      (by simpa only [List.forall_mem_map] using htop)
    rwa [List.length_map, nsmul_eq_mul] at hcard
  have hlength : 0 < ((top :: rest).length : K) := Nat.cast_pos.2 (Nat.zero_lt_succ _)
  rw [topShare_exact, if_pos htotal, div_mul_eq_mul_div, div_le_div_iff₀ hlength htotal]
  linarith

theorem topShare_le_grown (hitems : ∀ e ∈ top :: rest, 0 ≤ e.turnover) (hx : 0 ≤ x) (trades : Nat) :
    topShare (top :: rest) ≤
      topShare ({ top with turnover := top.turnover + x, trades := trades } :: rest) := by
  have hle := turnover_le_total hitems (.head _)
  have hgrown : totalOf ({ top with turnover := top.turnover + x, trades := trades } :: rest) =
      totalOf (top :: rest) + x := by
    rw [totalOf_cons, totalOf_cons]
    ring
  by_cases htotal : 0 < totalOf (top :: rest)
  · have htotal' : 0 < totalOf (top :: rest) + x := by linarith
    have hratio : top.turnover / totalOf (top :: rest) ≤
        (top.turnover + x) / (totalOf (top :: rest) + x) := by
      have hmul := mul_le_mul_of_nonneg_right hle hx
      rw [div_le_div_iff₀ htotal htotal']
      linarith
    rw [topShare_exact, topShare_exact, if_pos htotal, hgrown, if_pos htotal']
    linarith
  · have hnone : topShare (top :: rest) = 0 := by rw [topShare_exact, if_neg htotal]
    rw [hnone]
    refine (topShare_bounds fun e he => ?_).1
    obtain rfl | he := List.mem_cons.1 he
    · exact add_nonneg (hitems top (.head _)) hx
    · exact hitems e (.tail _ he)

end Share

section Growth

variable [IsStrictOrderedRing K] {own : List (Transaction K)} {rest : List (Turnover K)}
  {top e : Turnover K} {t : Transaction K} {x : K}

theorem Turnover.Precedes.grow (h : top.Precedes e) (hx : 0 ≤ x) :
    Turnover.Precedes { top with turnover := top.turnover + x, trades := top.trades + 1 } e := by
  have hgrown : top.turnover ≤ top.turnover + x := le_add_of_nonneg_right hx
  obtain hless | ⟨hsame, htrades⟩ := h
  · exact .inl (hless.trans_le hgrown)
  · have hmore : e.trades < top.trades + 1 := by
      obtain htrades | ⟨htrades, _⟩ := htrades <;> omega
    obtain hless | hstill := hgrown.lt_or_eq
    · exact .inl (hsame ▸ hless)
    · exact .inr ⟨hsame.trans hstill, .inl hmore⟩

theorem turnovers_append_top (h : turnovers own = top :: rest) (hitem : t.item = top.item)
    (hx : 0 ≤ t.price * t.quantity) :
    turnovers (own ++ [t]) =
      { top with turnover := top.turnover + t.price * t.quantity, trades := top.trades + 1 } :: rest := by
  have hitemizes := h ▸ itemizes_turnovers own
  obtain ⟨htop, hrest⟩ := List.pairwise_cons.1 (h ▸ turnovers_ranked own)
  exact (hitemizes.again hitem.symm).eq_turnovers
    (List.pairwise_cons.2 ⟨fun e he => (htop e he).grow hx, hrest⟩)

theorem turnovers_nonneg (hown : ∀ t ∈ own, 0 ≤ t.price * t.quantity) :
    ∀ e ∈ turnovers own, 0 ≤ e.turnover := by
  intro e he
  rw [(itemizes_turnovers own).comesTo e he, turnoverOf, sum_exact]
  refine List.sum_nonneg fun x hx => ?_
  obtain ⟨t, ht, rfl⟩ := List.mem_map.1 hx
  exact hown t (List.mem_of_mem_filter ht)

omit [IsStrictOrderedRing K] in
theorem turnover_le_top (h : turnovers own = top :: rest) :
    ∀ e ∈ top :: rest, e.turnover ≤ top.turnover := by
  obtain ⟨htop, _⟩ := List.pairwise_cons.1 (h ▸ turnovers_ranked own)
  intro e he
  obtain rfl | he := List.mem_cons.1 he
  · exact le_refl _
  · exact (htop e he).elim le_of_lt fun hsame => hsame.1.le

end Growth

section Levels

def RiskLevel.grade : RiskLevel → Nat
  | low => 0
  | medium => 1
  | high => 2

theorem riskLevel_mono (items : Nat) {share share' : K} (h : share ≤ share') :
    (riskLevel items share).grade ≤ (riskLevel items share').grade := by
  have hatLeast (n : Nat) : Amount.atLeast n share = true → Amount.atLeast n share' = true :=
    fun hn => decide_eq_true ((of_decide_eq_true hn).trans h)
  have hhigh := hatLeast 60
  have hmedium := hatLeast 35
  simp only [riskLevel]
  grind [RiskLevel.grade]

end Levels

/-- What is said of transactions and of the risk in them. -/
structure Risk.Sound (r : Risk K) (own : List (Transaction K)) : Prop where
  nonneg : 0 ≤ r.topItemSharePct
  le_hundred : r.topItemSharePct ≤ 100
  distinct : r.distinctItems = (own.map (·.item)).toFinset.card
  concentrated : 0 < (own.map fun t => t.price * t.quantity).sum →
    100 / (r.distinctItems : K) ≤ r.topItemSharePct
  ratio : ∀ x, r.sellBuyRatio = some x ↔
    0 < notionalOf own .buy ∧ x = notionalOf own .sell / notionalOf own .buy

theorem length_turnovers (own : List (Transaction K)) :
    (turnovers own).length = (own.map (·.item)).toFinset.card := by
  have hitemizes := itemizes_turnovers own
  rw [← List.length_map (·.item), ← List.toFinset_card_of_nodup hitemizes.distinct]
  refine congrArg Finset.card (Finset.ext fun item => ?_)
  rw [List.mem_toFinset, List.mem_toFinset, hitemizes.covers]

section Risk

variable [IsStrictOrderedRing K] {ts ts' : List (Transaction K)} {now : Timestamp} {top : Turnover K}
  {t : Transaction K}

theorem inWindow_nonneg (hts : ∀ t ∈ ts, 0 ≤ t.price * t.quantity) :
    ∀ e ∈ turnovers (inWindow now ts), 0 ≤ e.turnover :=
  turnovers_nonneg fun t ht => hts t (List.mem_of_mem_filter ht)

theorem risk_sound (hts : ∀ t ∈ ts, 0 ≤ t.price * t.quantity) :
    (risk ts now).Sound (inWindow now ts) := by
  have hturnovers : ∀ e ∈ turnovers (inWindow now ts), 0 ≤ e.turnover := inWindow_nonneg hts
  obtain ⟨hnonneg, hle⟩ := topShare_bounds hturnovers
  have hflow := flow_accounts ts now
  constructor
  case nonneg => exact hnonneg
  case le_hundred => exact hle
  case distinct => exact length_turnovers _
  case concentrated =>
    intro htotal
    rw [← (tallied_turnovers _).sums.1] at htotal
    change 100 / ((turnovers (inWindow now ts)).length : K) ≤ topShare (turnovers (inWindow now ts))
    cases hentries : turnovers (inWindow now ts) with
    | nil =>
        rw [hentries] at htotal
        exact absurd htotal (lt_irrefl _)
    | cons top rest =>
        rw [hentries] at htotal
        exact le_topShare (turnover_le_top hentries) htotal
  case ratio =>
    intro x
    rw [← hflow.bought, ← hflow.sold]
    change (if decide (0 < (flow ts now).buyNotional) = true then _ else _) = _ ↔ _
    split
    · rename_i hbought
      simp only [Option.some.injEq, of_decide_eq_true hbought, true_and, eq_comm]
    · rename_i hnone
      simp only [reduceCtorEq, mt decide_eq_true hnone, false_and]

theorem risk_grows (hts : ∀ t ∈ ts, 0 ≤ t.price * t.quantity) (htop : top ∈ (flow ts now).topItems.head?)
    (hitem : t.item = top.item) (hrecent : now.minusDays 30 ≤ t.timestamp ∧ t.timestamp ≤ now)
    (hx : 0 ≤ t.price * t.quantity) (hperm : ts'.Perm (t :: ts)) :
    (risk ts now).topItemSharePct ≤ (risk ts' now).topItemSharePct ∧
      (risk ts now).level.grade ≤ (risk ts' now).level.grade := by
  obtain ⟨rest, hentries⟩ : ∃ rest, turnovers (inWindow now ts) = top :: rest := by
    have hhead : (turnovers (inWindow now ts)).head? = some top := by
      rw [← (List.head?_take ..).trans (if_neg (Nat.succ_ne_zero 4))]
      exact htop
    exact List.head?_eq_some_iff.1 hhead
  have hgrown : turnovers (inWindow now ts') =
      { top with turnover := top.turnover + t.price * t.quantity, trades := top.trades + 1 } :: rest := by
    have hwindow : inWindow now (t :: ts) = t :: inWindow now ts :=
      List.filter_cons_of_pos (decide_eq_true hrecent)
    have hadded : (inWindow now ts').Perm (t :: inWindow now ts) := hwindow ▸ hperm.filter _
    rw [← turnovers_append_top hentries hitem hx]
    exact turnovers_eq_of_perm (hadded.trans (List.perm_append_singleton ..).symm)
  have hshare : topShare (turnovers (inWindow now ts)) ≤ topShare (turnovers (inWindow now ts')) := by
    rw [hgrown, hentries]
    exact topShare_le_grown (hentries ▸ inWindow_nonneg hts) hx _
  have hlength : (turnovers (inWindow now ts)).length = (turnovers (inWindow now ts')).length := by
    rw [hgrown, hentries, List.length_cons, List.length_cons]
  refine ⟨hshare, ?_⟩
  change (riskLevel (turnovers _).length (topShare (turnovers _))).grade ≤
    (riskLevel (turnovers _).length (topShare (turnovers _))).grade
  rw [hlength]
  exact riskLevel_mono _ hshare

/-- The risk of an account is made of no division by zero, and is one of concentration: its share is a
percentage no less than that of as many equal items, and grows with the top item, as its level does. -/
theorem risk_of_concentration (ts : List (Transaction K)) (now : Timestamp)
    (hts : ∀ t ∈ ts, 0 ≤ t.price * t.quantity) :
    (risk ts now).Sound
        (ts.filter fun t => now.minusDays 30 ≤ t.timestamp ∧ t.timestamp ≤ now) ∧
      risk (ts.map (Transaction.map Checked.value)) now = (risk ts now).map Checked.value ∧
      ∀ top ∈ (flow ts now).topItems.head?, ∀ t : Transaction K, t.item = top.item →
        now.minusDays 30 ≤ t.timestamp ∧ t.timestamp ≤ now → 0 ≤ t.price * t.quantity →
        ∀ ts', ts'.Perm (t :: ts) →
          (risk ts now).topItemSharePct ≤ (risk ts' now).topItemSharePct ∧
            (risk ts now).level.grade ≤ (risk ts' now).level.grade :=
  ⟨risk_sound hts, Checked.carries.risk ts now, fun _ htop _ hitem hrecent hx _ hperm =>
    risk_grows hts htop hitem hrecent hx hperm⟩

end Risk

def Transaction.single (item : String) (side : Side) (price : Nat) : Transaction ℚ :=
  ⟨item, item, side, price, 1, ⟨0, 0⟩⟩

def threeTrades : List (Transaction ℚ) :=
  [.single "helm" .buy 2, .single "sword" .sell 3, .single "bow" .buy 1]

theorem turnovers_threeTrades :
    turnovers (inWindow ⟨0, 0⟩ threeTrades) =
      [⟨"sword", 3, 1⟩, ⟨"helm", 2, 1⟩, ⟨"bow", 1, 1⟩] := by
  refine Itemizes.eq_turnovers ⟨by decide, fun item => ?_, by decide +kernel⟩ ?_
  · have hitems : (inWindow ⟨0, 0⟩ threeTrades).map (·.item) = ["helm", "sword", "bow"] := by decide
    rw [hitems]
    exact (List.Perm.swap ..).mem_iff
  · norm_num [Turnover.Precedes]

theorem top_item_bought_again :
    (∀ t ∈ threeTrades, 0 ≤ t.price * t.quantity) ∧
      (flow threeTrades ⟨0, 0⟩).topItems.head? = some ⟨"sword", 3, 1⟩ ∧
      100 / ((risk threeTrades ⟨0, 0⟩).distinctItems : ℚ) ≤
        (risk threeTrades ⟨0, 0⟩).topItemSharePct ∧
      (risk threeTrades ⟨0, 0⟩).topItemSharePct ≤
        (risk (.single "sword" .buy 4 :: threeTrades) ⟨0, 0⟩).topItemSharePct := by
  have hts : ∀ t ∈ threeTrades, 0 ≤ t.price * t.quantity := by decide +kernel
  have htop : (flow threeTrades ⟨0, 0⟩).topItems.head? = some ⟨"sword", 3, 1⟩ :=
    congrArg (fun entries => (entries.take 5).head?) turnovers_threeTrades
  obtain ⟨hsound, _, hgrows⟩ := risk_of_concentration threeTrades ⟨0, 0⟩ hts
  refine ⟨hts, htop, hsound.concentrated (by decide +kernel), ?_⟩
  exact (hgrows _ htop _ rfl (by decide) (by decide +kernel) _ (.refl _)).1

end Advisor.Account

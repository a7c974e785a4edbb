import Advisor.Proofs.Account.Arithmetic
import Advisor.Proofs.Distinct
import Mathlib.Algebra.BigOperators.Group.List.Basic
import Mathlib.Data.List.Induction
import Mathlib.Data.List.Nodup
import Mathlib.Data.Prod.Lex
import Mathlib.Data.String.Basic
import Mathlib.Tactic.Ring

/-!
The flow of a ledger accounts for each transaction of the window once: by its side, and by its item. It
does not depend on the order in which transactions or items come.
-/

namespace Advisor.Account

-- sums and products are written in the operations of the field
attribute [-instance] Amount.toAdd Amount.toSub Amount.toMul Amount.toDiv

variable {K : Type} [Field K] [LinearOrder K]

theorem sum_exact (xs : List K) : Amount.sum xs = xs.sum := by
  rw [List.sum_eq_foldl, Amount.sum]
  change xs.foldl (· + ·) ((0 : Nat) : K) = _
  rw [Nat.cast_zero]

section Order

/-- A greater turnover, or the same one in more trades, or in as many of an item whose name comes first. -/
def Turnover.Precedes (a b : Turnover K) : Prop :=
  b.turnover < a.turnover ∨ b.turnover = a.turnover ∧
    (b.trades < a.trades ∨ b.trades = a.trades ∧ a.item < b.item)

def Turnover.key (e : Turnover K) : Kᵒᵈ ×ₗ ℕᵒᵈ ×ₗ String :=
  toLex (.toDual e.turnover, toLex (.toDual e.trades, e.item))

omit [Field K] [LinearOrder K] in
theorem Turnover.key_injective : Function.Injective (Turnover.key (K := K)) := by
  rintro ⟨item, turnover, trades⟩ ⟨item', turnover', trades'⟩ h
  cases h
  rfl

theorem Turnover.before_iff {a b : Turnover K} : a.before b = true ↔ a.key ≤ b.key := by
  have hcompare : a.before b = (compare a.key b.key).isLE := rfl
  rw [hcompare, Ordering.isLE_iff_ne_gt, ← compare_le_iff_le]

omit [Field K] in
theorem Turnover.precedes_iff {a b : Turnover K} : a.Precedes b ↔ a.key < b.key := by
  rw [Turnover.key, Turnover.key, Prod.Lex.toLex_lt_toLex, Prod.Lex.toLex_lt_toLex]
  simp only [OrderDual.toDual_lt_toDual, OrderDual.toDual_inj, Precedes, eq_comm]

theorem pairwise_before (entries : List (Turnover K)) :
    (entries.mergeSort Turnover.before).Pairwise fun a b => a.key ≤ b.key := by
  refine (List.pairwise_mergeSort ?_ ?_ entries).imp Turnover.before_iff.1
  · intro a b c
    simp only [Turnover.before_iff]
    exact le_trans
  · intro a b
    simp only [Bool.or_eq_true, Turnover.before_iff]
    exact le_total _ _

omit [Field K] in
theorem eq_of_sorted {entries entries' : List (Turnover K)} (h : entries.Perm entries')
    (hsorted : entries.Pairwise fun a b => a.key ≤ b.key)
    (hsorted' : entries'.Pairwise fun a b => a.key ≤ b.key) : entries = entries' := by
  refine h.eq_of_pairwise (fun a b _ _ hab hba => ?_) hsorted hsorted'
  exact Turnover.key_injective (le_antisymm hab hba)

theorem mergeSort_eq_of_perm {entries entries' : List (Turnover K)} (h : entries.Perm entries') :
    entries.mergeSort Turnover.before = entries'.mergeSort Turnover.before :=
  eq_of_sorted ((List.mergeSort_perm _ _).trans (h.trans (List.mergeSort_perm _ _).symm))
    (pairwise_before _) (pairwise_before _)

end Order

section Tally

/-- Transactions are taken one after the other into entries, one for each item, that are kept in whatever
order. -/
inductive Tallied : List (Transaction K) → List (Turnover K) → Prop
  | nil : Tallied [] []
  | first (h : Tallied own entries) (hnew : t.item ∉ entries.map (·.item))
      (horder : entries'.Perm (⟨t.item, 0 + t.price * t.quantity, 0 + 1⟩ :: entries)) :
      Tallied (own ++ [t]) entries'
  | again (h : Tallied own (e :: entries)) (hsame : e.item = t.item)
      (horder : entries'.Perm
        ({ e with turnover := e.turnover + t.price * t.quantity, trades := e.trades + 1 } :: entries)) :
      Tallied (own ++ [t]) entries'

variable {own own' : List (Transaction K)} {entries entries' : List (Turnover K)} {t : Transaction K}
  {e : Turnover K}

omit [LinearOrder K] in
theorem Tallied.perm (h : Tallied own entries) (horder : entries'.Perm entries) :
    Tallied own entries' := by
  cases h with
  | nil => exact horder.eq_nil ▸ .nil
  | first h hnew hfirst => exact .first h hnew (horder.trans hfirst)
  | again h hsame hagain => exact .again h hsame (horder.trans hagain)

theorem exists_tallied (own : List (Transaction K)) : ∃ entries, Tallied own entries := by
  induction own using List.reverseRecOn with
  | nil => exact ⟨[], .nil⟩
  | append_singleton own t ih =>
      obtain ⟨entries, h⟩ := ih
      by_cases hnew : t.item ∈ entries.map (·.item)
      · obtain ⟨e, he, hsame⟩ := List.mem_map.1 hnew
        exact ⟨_, .again (h.perm (List.perm_cons_erase he).symm) hsame (.refl _)⟩
      · exact ⟨_, .first h hnew (.refl _)⟩

omit [LinearOrder K] in
theorem Tallied.sums (h : Tallied own entries) :
    (entries.map (·.turnover)).sum = (own.map fun t => t.price * t.quantity).sum ∧
      (entries.map (·.trades)).sum = own.length := by
  induction h with
  | nil => exact ⟨rfl, rfl⟩
  | first h hnew horder ih =>
      obtain ⟨hturnover, htrades⟩ := ih
      rw [(horder.map _).sum_eq, (horder.map _).sum_eq]
      simp only [List.map_cons, List.sum_cons, hturnover, htrades, List.map_append, List.map_nil,
        List.sum_append, List.sum_nil, List.length_append, List.length_singleton]
      exact ⟨by ring, by omega⟩
  | again h hsame horder ih =>
      obtain ⟨hturnover, htrades⟩ := ih
      rw [(horder.map _).sum_eq, (horder.map _).sum_eq]
      simp only [List.map_cons, List.sum_cons, List.map_append, List.map_nil, List.sum_append,
        List.sum_nil, List.length_append, List.length_singleton] at hturnover htrades ⊢
      exact ⟨by rw [← hturnover]; ring, by omega⟩

theorem turnoverOf_append (own : List (Transaction K)) (t : Transaction K) (item : String) :
    turnoverOf (own ++ [t]) item =
      if t.item = item then
        ⟨item, (turnoverOf own item).turnover + t.price * t.quantity, (turnoverOf own item).trades + 1⟩
      else turnoverOf own item := by
  have hnotional : ∀ t : Transaction K, t.notional = t.price * t.quantity := fun _ => rfl
  simp only [turnoverOf, List.filter_append, sum_exact]
  by_cases hitem : t.item = item
  · simp [hitem, hnotional]
  · simp [hitem]

/-- One entry for each item, of what its own transactions come to. -/
structure Itemizes (own : List (Transaction K)) (entries : List (Turnover K)) : Prop where
  distinct : (entries.map (·.item)).Nodup
  covers : ∀ item, item ∈ entries.map (·.item) ↔ item ∈ own.map (·.item)
  comesTo : ∀ e ∈ entries, e = turnoverOf own e.item

theorem Itemizes.perm (h : Itemizes own entries) (horder : entries'.Perm entries) :
    Itemizes own entries' where
  distinct := (horder.map _).nodup_iff.2 h.distinct
  covers item := (horder.map _).mem_iff.trans (h.covers item)
  comesTo e he := h.comesTo e (horder.mem_iff.1 he)

theorem Itemizes.comesTo_append (h : ∀ e ∈ entries, e = turnoverOf own e.item)
    (hnew : t.item ∉ entries.map (·.item)) : ∀ e ∈ entries, e = turnoverOf (own ++ [t]) e.item := by
  intro e he
  have hother : t.item ≠ e.item := fun hsame => hnew (hsame ▸ List.mem_map_of_mem he)
  rw [turnoverOf_append, if_neg hother]
  exact h e he

theorem Itemizes.first (h : Itemizes own entries) (hnew : t.item ∉ entries.map (·.item)) :
    Itemizes (own ++ [t]) (⟨t.item, 0 + t.price * t.quantity, 0 + 1⟩ :: entries) where
  distinct := List.nodup_cons.2 ⟨hnew, h.distinct⟩
  covers item := by
    have hcovers := h.covers item
    simp only [List.map_cons, List.map_append, List.map_nil, List.mem_cons, List.mem_append,
      List.not_mem_nil, or_false]
    rw [hcovers, or_comm]
  comesTo e he := by
    obtain rfl | he := List.mem_cons.1 he
    · have hnone : own.filter (·.item == t.item) = [] := by
        rw [List.filter_eq_nil_iff]
        intro t' ht' hsame
        exact hnew ((h.covers _).2 (List.mem_map.2 ⟨t', ht', beq_iff_eq.1 hsame⟩))
      rw [turnoverOf_append, if_pos rfl, turnoverOf, hnone]
      simp [sum_exact]
    · exact Itemizes.comesTo_append h.comesTo hnew e he

theorem Itemizes.again (h : Itemizes own (e :: entries)) (hsame : e.item = t.item) :
    Itemizes (own ++ [t])
      ({ e with turnover := e.turnover + t.price * t.quantity, trades := e.trades + 1 } ::
        entries) where
  distinct := h.distinct
  covers item := by
    have hcovers := h.covers item
    simp only [List.map_cons, List.map_append, List.map_nil, List.mem_cons, List.mem_append,
      List.not_mem_nil, or_false] at hcovers ⊢
    rw [← hcovers, hsame]
    exact ⟨.inl, fun h => h.elim id .inl⟩
  comesTo e' he' := by
    obtain rfl | he' := List.mem_cons.1 he'
    · rw [turnoverOf_append, if_pos hsame.symm, ← h.comesTo e (.head _)]
    · exact Itemizes.comesTo_append (fun e' he' => h.comesTo e' (.tail _ he'))
        (hsame ▸ (List.nodup_cons.1 h.distinct).1) e' he'

theorem Tallied.itemizes (h : Tallied own entries) : Itemizes own entries := by
  induction h with
  | nil => exact ⟨List.nodup_nil, by simp, by simp⟩
  | first h hnew horder ih => exact (ih.first hnew).perm horder
  | again h hsame horder ih => exact (ih.again hsame).perm horder

theorem Itemizes.mem_iff (h : Itemizes own entries) :
    e ∈ entries ↔ ∃ item ∈ own.map (·.item), e = turnoverOf own item := by
  constructor
  · intro he
    exact ⟨e.item, (h.covers _).1 (List.mem_map_of_mem he), h.comesTo e he⟩
  · rintro ⟨item, hitem, rfl⟩
    obtain ⟨e, he, rfl⟩ := List.mem_map.1 ((h.covers item).2 hitem)
    exact h.comesTo e he ▸ he

theorem Itemizes.unique (h : Itemizes own entries) (h' : Itemizes own' entries')
    (hown : own.Perm own') : entries.Perm entries' := by
  have hturnover (item : String) : turnoverOf own item = turnoverOf own' item := by
    have hfilter := hown.filter (·.item == item)
    simp only [turnoverOf, sum_exact, hfilter.length_eq, (hfilter.map _).sum_eq]
  refine (List.perm_ext_iff_of_nodup (h.distinct.of_map _) (h'.distinct.of_map _)).2 fun e => ?_
  simp only [h.mem_iff, h'.mem_iff, (hown.map _).mem_iff, hturnover]

theorem itemizes_turnovers (own : List (Transaction K)) : Itemizes own (turnovers own) := by
  have hitems : ((own.map (·.item)).eraseDups.map (turnoverOf own)).map (·.item) =
      (own.map (·.item)).eraseDups := by
    rw [List.map_map]
    exact List.map_id _
  refine Itemizes.perm ⟨?_, fun item => ?_, fun e he => ?_⟩ (List.mergeSort_perm _ _)
  · rw [hitems]
    exact nodup_eraseDups _
  · rw [hitems, List.mem_eraseDups]
  · obtain ⟨item, _, rfl⟩ := List.mem_map.1 he
    rfl

theorem Tallied.mergeSort_eq (h : Tallied own entries) (hown : own.Perm own') :
    entries.mergeSort Turnover.before = turnovers own' :=
  mergeSort_eq_of_perm ((h.itemizes.unique (itemizes_turnovers own') hown).trans
    (List.mergeSort_perm _ _))

theorem turnovers_eq_of_perm (hown : own.Perm own') : turnovers own = turnovers own' := by
  obtain ⟨entries, h⟩ := exists_tallied own
  rw [← h.mergeSort_eq (.refl _), h.mergeSort_eq hown]

theorem tallied_turnovers (own : List (Transaction K)) : Tallied own (turnovers own) := by
  obtain ⟨entries, h⟩ := exists_tallied own
  exact h.perm (h.mergeSort_eq (.refl _) ▸ List.mergeSort_perm _ _)

theorem turnovers_ranked (own : List (Transaction K)) :
    (turnovers own).Pairwise Turnover.Precedes := by
  have hdistinct := List.pairwise_map.1 (itemizes_turnovers own).distinct
  refine (pairwise_before _).imp₂ (fun a b hle hne => ?_) hdistinct
  exact Turnover.precedes_iff.2 (lt_of_le_of_ne hle fun hkey =>
    hne (congrArg Turnover.item (Turnover.key_injective hkey)))

theorem Itemizes.eq_turnovers (h : Itemizes own entries) (hranked : entries.Pairwise Turnover.Precedes) :
    turnovers own = entries :=
  eq_of_sorted ((itemizes_turnovers own).unique h (.refl _)) (pairwise_before _)
    (hranked.imp fun hab => (Turnover.precedes_iff.1 hab).le)

end Tally

section Flow

variable {own own' : List (Transaction K)}

/-- What transactions of one side come to, and those of both. -/
def notionalOf (own : List (Transaction K)) (side : Side) : K :=
  ((own.filter (·.side = side)).map fun t => t.price * t.quantity).sum

omit [LinearOrder K] in
theorem notionalOf_add (own : List (Transaction K)) :
    notionalOf own .buy + notionalOf own .sell = (own.map fun t => t.price * t.quantity).sum := by
  induction own with
  | nil => simp [notionalOf]
  | cons t own ih =>
      rw [List.map_cons, List.sum_cons, ← ih]
      cases hside : t.side <;> simp [notionalOf, hside] <;> ring

/-- What is said of transactions and of their entries, in order. -/
structure Flow.Accounts (x : Flow K) (own : List (Transaction K)) (entries : List (Turnover K)) :
    Prop where
  distinct : (entries.map (·.item)).Nodup
  covers : ∀ item, item ∈ entries.map (·.item) ↔ ∃ t ∈ own, t.item = item
  turnover : ∀ e ∈ entries,
    e.turnover = ((own.filter (·.item = e.item)).map fun t => t.price * t.quantity).sum
  trades : ∀ e ∈ entries, e.trades = (own.filter (·.item = e.item)).length
  ranked : entries.Pairwise Turnover.Precedes
  counted : x.tradeCount = own.length
  counted_entries : x.tradeCount = (entries.map (·.trades)).sum
  bought : x.buyNotional = notionalOf own .buy
  sold : x.sellNotional = notionalOf own .sell
  turned : x.buyNotional + x.sellNotional = (entries.map (·.turnover)).sum
  net : x.netFlow = x.sellNotional - x.buyNotional
  top : x.topItems = entries.take 5
  best : ∀ e ∈ x.topItems, ∀ e' ∈ entries, e' ∉ x.topItems → e.Precedes e'

theorem flow_accounts (ts : List (Transaction K)) (now : Timestamp) :
    (flow ts now).Accounts (inWindow now ts) (turnovers (inWindow now ts)) := by
  have hitemizes := itemizes_turnovers (inWindow now ts)
  have hranked := turnovers_ranked (inWindow now ts)
  obtain ⟨hturnover, htrades⟩ := (tallied_turnovers (inWindow now ts)).sums
  have hside (side : Side) : Amount.sum (((inWindow now ts).filter (·.side == side)).map
      Transaction.notional) = notionalOf (inWindow now ts) side := sum_exact _
  have hbought : (flow ts now).buyNotional = notionalOf (inWindow now ts) .buy := hside .buy
  have hsold : (flow ts now).sellNotional = notionalOf (inWindow now ts) .sell := hside .sell
  constructor
  case distinct => exact hitemizes.distinct
  case covers => exact fun item => (hitemizes.covers item).trans List.mem_map
  case turnover =>
    intro e he
    conv_lhs => rw [hitemizes.comesTo e he, turnoverOf, sum_exact]
    rfl
  case trades =>
    intro e he
    conv_lhs => rw [hitemizes.comesTo e he]
    rfl
  case ranked => exact hranked
  case counted => rfl
  case counted_entries => exact htrades.symm
  case bought => exact hbought
  case sold => exact hsold
  case turned => rw [hbought, hsold, notionalOf_add, hturnover]
  case net => rfl
  case top => rfl
  case best =>
    intro e he e' he' hout
    rw [← List.take_append_drop topItems (turnovers _)] at hranked he'
    have homitted := (List.mem_append.1 he').resolve_left hout
    exact (List.pairwise_append.1 hranked).2.2 e he e' homitted

theorem flow_eq_of_perm {ts ts' : List (Transaction K)} {now : Timestamp}
    (h : (inWindow now ts').Perm (inWindow now ts)) : flow ts' now = flow ts now := by
  have hside (side : Side) :
      Amount.sum (((inWindow now ts').filter (·.side == side)).map Transaction.notional) =
        Amount.sum (((inWindow now ts).filter (·.side == side)).map Transaction.notional) := by
    rw [sum_exact, sum_exact, ((h.filter _).map _).sum_eq]
  simp only [flow, h.length_eq, hside, turnovers_eq_of_perm h]

/-- A flow is of the transactions of the last thirty days, each of which it accounts for once, among those
of its side and in the entry of its item. It is the same in whatever order the transactions come and the
entries are kept. -/
theorem flow_conserves (ts : List (Transaction K)) (now : Timestamp) :
    let recent := List.filter fun t : Transaction K =>
      now.minusDays 30 ≤ t.timestamp ∧ t.timestamp ≤ now
    ∃ entries, Tallied (recent ts) entries ∧ (flow ts now).Accounts (recent ts) entries ∧
      (∀ tallied, Tallied (recent ts) tallied → tallied.mergeSort Turnover.before = entries) ∧
      ∀ ts', (recent ts').Perm (recent ts) → flow ts' now = flow ts now :=
  ⟨turnovers (inWindow now ts), tallied_turnovers _, flow_accounts ts now,
    fun _ htallied => htallied.mergeSort_eq (.refl _), fun _ => flow_eq_of_perm⟩

end Flow

end Advisor.Account

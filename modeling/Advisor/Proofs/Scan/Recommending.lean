import Advisor.Proofs.Number.TotalOrder
import Advisor.Proofs.Sorted
import Advisor.Scan.Row
import Mathlib.Data.List.Forall2
import Mathlib.Data.Prod.Lex

/-!
The rows that are recommended are the best of those to act on, however the rows are given.
-/

namespace Advisor.Scan.Row

/-- How a row stands to another: by their profits, and where these are equal by their scores. No score counts
as zero. -/
def rank (a b : Row) : Ordering :=
  (Number.totalOrder a.profit b.profit).then (Number.totalOrder (a.score.getD 0) (b.score.getD 0))

/-- A row is strictly better than another. -/
def Better (a b : Row) : Prop := rank a b = .gt

def Tied (a b : Row) : Prop := rank a b = .eq

instance (a b : Row) : Decidable (Better a b) := inferInstanceAs (Decidable (_ = _))

instance (a b : Row) : Decidable (Tied a b) := inferInstanceAs (Decidable (_ = _))

/-- The best rows come first, and equally good ones in the order in which they are given. -/
structure Ranked (rows ranked : List Row) : Prop where
  perm : ranked.Perm rows
  best : ranked.Pairwise fun a b => ¬ Better b a
  ties : ∀ row, ranked.filter (Tied row ·) = rows.filter (Tied row ·)

def key (row : Row) : Int ×ₗ Int :=
  toLex (Number.orderKey row.profit, Number.orderKey (row.score.getD 0))

section Order

variable {a b : Row} {rows others : List Row}

theorem better_iff : Better a b ↔ key b < key a := by
  rw [Better, rank, ← Number.compare_orderKey, ← Number.compare_orderKey, Ordering.then_eq_gt,
    Int.compare_eq_gt, Int.compare_eq_eq, Int.compare_eq_gt, key, key, Prod.Lex.toLex_lt_toLex,
    eq_comm (a := Number.orderKey a.profit)]

theorem tied_iff : Tied a b ↔ key a = key b := by
  rw [Tied, rank, ← Number.compare_orderKey, ← Number.compare_orderKey, Ordering.then_eq_eq,
    Int.compare_eq_eq, Int.compare_eq_eq, key, key, toLex_inj, Prod.mk.injEq]

theorem before_eq (a b : Row) : before a b = decide (key b ≤ key a) := by
  rw [Bool.eq_iff_iff, decide_eq_true_iff, ← not_lt, ← better_iff, Better, rank,
    ← Number.compare_orderKey, ← Number.compare_orderKey]
  exact Ordering.isLE_iff_ne_gt

theorem top_eq (rows : List Row) :
    top rows = ((rows.filter isActionable).mergeSort fun a b => key b ≤ key a).take 3 := by
  have hbefore : before = fun a b => decide (key b ≤ key a) := funext₂ before_eq
  rw [top, hbefore, maxTop]

theorem ranked_mergeSort (rows : List Row) :
    Ranked rows (rows.mergeSort fun a b => key b ≤ key a) where
  perm := List.mergeSort_perm ..
  best := (pairwise_mergeSort key rows).imp fun hle hbetter => absurd (better_iff.1 hbetter) (not_lt.2 hle)
  ties row := by
    have hties := filter_mergeSort key rows (key row)
    simpa only [tied_iff, eq_comm] using hties

theorem Ranked.omitted {ranked : List Row} (h : Ranked rows ranked) (n : Nat) :
    ∀ left ∈ ranked.drop n, ∀ shown ∈ ranked.take n, ¬ Better left shown := by
  have hbest := h.best
  rw [← List.take_append_drop n ranked, List.pairwise_append] at hbest
  exact fun left hleft shown hshown => hbest.2.2 shown hshown left hleft

theorem top_tied (h : others.Perm rows) : List.Forall₂ Tied (top others) (top rows) := by
  have hkeys := map_mergeSort_of_perm key (h.filter isActionable)
  have htop : (top others).map key = (top rows).map key := by
    rw [top_eq, top_eq, List.map_take, List.map_take, hkeys]
  rw [← List.forall₂_eq_eq_eq, List.forall₂_map_left_iff, List.forall₂_map_right_iff] at htop
  exact htop.imp fun _ _ => tied_iff.2

end Order

/-- Rows are recommended from a list: the first three, at most, of those to act on in their rank. -/
structure Recommends (rows shown : List Row) : Prop where
  ranked : ∃ ranked, Ranked (rows.filter (·.profit > 0)) ranked ∧ shown = ranked.take 3
  actionable : ∀ row ∈ shown, row ∈ rows ∧ row.profit > 0
  best : ∃ omitted, (shown ++ omitted).Perm (rows.filter (·.profit > 0)) ∧
    ∀ left ∈ omitted, ∀ row ∈ shown, ¬ Better left row
  inOrder : ∀ row, shown.filter (Tied row ·) <+: (rows.filter (·.profit > 0)).filter (Tied row ·)
  empty_iff : shown = [] ↔ ∀ row ∈ rows, ¬ row.profit > 0

theorem Ranked.recommends {rows ranked : List Row} (h : Ranked (rows.filter (·.profit > 0)) ranked) :
    Recommends rows (ranked.take 3) where
  ranked := ⟨ranked, h, rfl⟩
  actionable row hrow := by
    have hmem := h.perm.mem_iff.1 (List.mem_of_mem_take hrow)
    exact (List.mem_filter.1 hmem).imp_right of_decide_eq_true
  best := by
    refine ⟨ranked.drop 3, ?_, h.omitted 3⟩
    rw [List.take_append_drop]
    exact h.perm
  inOrder row := by
    rw [← h.ties row]
    exact (List.take_prefix 3 ranked).filter _
  empty_iff := by
    have hempty : ranked = [] ↔ rows.filter (·.profit > 0) = [] :=
      ⟨fun hnil => List.nil_perm.1 (hnil ▸ h.perm), fun hnil => List.perm_nil.1 (hnil ▸ h.perm)⟩
    rw [List.take_eq_nil_iff, or_iff_right (by decide), hempty, List.filter_eq_nil_iff]
    simp only [decide_eq_true_eq]

/-- The rows on top are the best to act on, and rows in another order give others on top only for equally good
ones. -/
theorem top_recommends (rows : List Row) :
    Recommends rows (top rows) ∧
      ∀ others, others.Perm rows → List.Forall₂ Tied (top others) (top rows) := by
  refine ⟨?_, fun others h => top_tied h⟩
  have hactionable : rows.filter isActionable = rows.filter (·.profit > 0) := rfl
  rw [top_eq, hactionable]
  exact (ranked_mergeSort _).recommends

end Advisor.Scan.Row

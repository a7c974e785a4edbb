import Mathlib.Data.List.Perm.Basic
import Mathlib.Order.Lattice

/-!
What it is to sort by a key: the greatest come first, and those of one key in the order that they had.
-/

namespace Advisor

variable {α β : Type*} [LinearOrder β] {as bs : List α}

theorem pairwise_mergeSort (key : α → β) (as : List α) :
    (as.mergeSort fun a b => key b ≤ key a).Pairwise fun a b => key b ≤ key a := by
  refine (List.pairwise_mergeSort ?_ ?_ as).imp of_decide_eq_true
  · simpa using fun a b c hab hbc => le_trans hbc hab
  · simpa using fun a b => le_total _ _

theorem filter_mergeSort (key : α → β) (as : List α) (k : β) :
    (as.mergeSort fun a b => key b ≤ key a).filter (key · = k) = as.filter (key · = k) := by
  have hties : (as.filter (key · = k)).Pairwise fun a b => decide (key b ≤ key a) = true := by
    refine List.pairwise_of_forall_mem_list fun a ha b hb => ?_
    have hka := (List.mem_filter.1 ha).2
    have hkb := (List.mem_filter.1 hb).2
    simp only [decide_eq_true_eq] at hka hkb ⊢
    exact le_of_eq (hkb.trans hka.symm)
  have hkept : (as.filter (key · = k)).Sublist (as.mergeSort fun a b => key b ≤ key a) :=
    List.sublist_mergeSort (by simpa using fun a b c hab hbc => le_trans hbc hab)
      (by simpa using fun a b => le_total _ _) hties List.filter_sublist
  have hsame := (hkept.filter (key · = k)).eq_of_length
    (by simpa using ((List.mergeSort_perm as _).filter _).length_eq.symm)
  simpa using hsame.symm

theorem map_mergeSort_of_perm (key : α → β) (h : as.Perm bs) :
    (as.mergeSort fun a b => key b ≤ key a).map key = (bs.mergeSort fun a b => key b ≤ key a).map key := by
  have hsorted (as : List α) :
      ((as.mergeSort fun a b => key b ≤ key a).map key).Pairwise fun k k' => k' ≤ k :=
    List.pairwise_map.2 (pairwise_mergeSort key as)
  refine List.Perm.eq_of_pairwise (fun _ _ _ _ hab hba => le_antisymm hba hab) (hsorted as) (hsorted bs) ?_
  exact ((List.mergeSort_perm as _).trans (h.trans (List.mergeSort_perm bs _).symm)).map key

end Advisor

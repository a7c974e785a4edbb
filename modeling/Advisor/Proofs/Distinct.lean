import Mathlib.Data.List.Basic

/-! What it is to drop from a list what was in it before. -/

namespace Advisor

/-- What stays of a list read from its front, if of all entries with one key only the first does. -/
inductive FirstOfEach {α : Type} (key : α → String) : List α → List α → Prop
  | nil : FirstOfEach key [] []
  | again (h : FirstOfEach key as kept) (hkey : key a ∈ as.map key) :
      FirstOfEach key (as ++ [a]) kept
  | first (h : FirstOfEach key as kept) (hkey : key a ∉ as.map key) :
      FirstOfEach key (as ++ [a]) (kept ++ [a])

variable {α : Type} [BEq α] [LawfulBEq α]

theorem nodup_eraseDups (as : List α) : as.eraseDups.Nodup := by
  match as with
  | [] => exact List.nodup_nil
  | a :: rest =>
      rw [List.eraseDups_cons, List.nodup_cons, List.mem_eraseDups]
      exact ⟨by simp, nodup_eraseDups _⟩
termination_by as.length
decreasing_by exact Nat.lt_succ_of_le (List.length_filter_le _ _)

theorem eraseDups_of_nodup {as : List α} (h : as.Nodup) : as.eraseDups = as := by
  induction as with
  | nil => rfl
  | cons a rest ih =>
      obtain ⟨ha, hrest⟩ := List.nodup_cons.1 h
      have hother : rest.filter (fun b => !b == a) = rest := by
        refine List.filter_eq_self.2 fun b hb => ?_
        simp only [Bool.not_eq_true', beq_eq_false_iff_ne]
        rintro rfl
        exact ha hb
      rw [List.eraseDups_cons, hother, ih hrest]

end Advisor

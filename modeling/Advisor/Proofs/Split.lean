/-! What it is to split a list where a mark stands. -/

namespace Advisor

theorem not_of_mem_splitOnP {p : α → Bool} {as piece : List α} (h : piece ∈ as.splitOnP p) :
    ∀ a ∈ piece, p a = false := by
  induction as generalizing piece with
  | nil =>
      obtain rfl := List.mem_singleton.1 h
      simp
  | cons a as ih =>
      rw [List.splitOnP_cons_eq_if_modifyHead] at h
      split at h
      · obtain rfl | hrest := List.mem_cons.1 h
        · simp
        · exact ih hrest
      · rename_i ha
        obtain ⟨first, rest, hpieces⟩ := List.exists_cons_of_ne_nil (List.splitOnP_ne_nil p as)
        rw [hpieces, List.modifyHead_cons] at h
        rw [hpieces] at ih
        obtain rfl | hrest := List.mem_cons.1 h
        · exact List.forall_mem_cons.2 ⟨eq_false_of_ne_true ha, ih (.head _)⟩
        · exact ih (.tail _ hrest)

section Ended

variable [BEq α] [LawfulBEq α] {mark : α} {lines : List (List α)} {rest : List α}

theorem splitOnP_ended (hlines : ∀ line ∈ lines, mark ∉ line) (hrest : mark ∉ rest) :
    (lines.flatMap (· ++ [mark]) ++ rest).splitOnP (· == mark) = lines ++ [rest] := by
  have hplain {line : List α} (hline : mark ∉ line) : ∀ a ∈ line, (a == mark) = false := fun a ha =>
    beq_eq_false_iff_ne.2 fun hmark => hline (hmark ▸ ha)
  induction lines with
  | nil => exact List.splitOnP_eq_singleton (hplain hrest)
  | cons line lines ih =>
      obtain ⟨hline, hmore⟩ := List.forall_mem_cons.1 hlines
      rw [List.flatMap_cons, List.append_assoc, List.append_assoc, List.singleton_append,
        List.splitOnP_append_cons_of_forall_mem (hplain hline) mark (beq_self_eq_true mark), ih hmore,
        List.cons_append]

theorem count_ended (hlines : ∀ line ∈ lines, mark ∉ line) :
    (lines.flatMap (· ++ [mark])).count mark = lines.length := by
  induction lines with
  | nil => rfl
  | cons line lines ih =>
      obtain ⟨hline, hmore⟩ := List.forall_mem_cons.1 hlines
      rw [List.flatMap_cons, List.count_append, List.count_append, List.count_eq_zero.2 hline, ih hmore,
        List.count_singleton_self, List.length_cons]
      omega

end Ended

end Advisor

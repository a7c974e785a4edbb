import Advisor.Proofs.Split
import Advisor.Proofs.Text.Trimming

/-!
What the lines of a text say. White space around a text, or around a line of it, does not matter for that.
-/

namespace Advisor

namespace Text

def stripped (separator p : Char → Bool) (cs : List Char) : List String :=
  ((cs.splitOnP separator).map fun piece => String.ofList (strip p piece)).filter (· ≠ "")

/-- The lines of a text that show something, without the white space around it. -/
def rows : List Char → List String :=
  stripped (· == '\n') isBlank

/-- A character stands in it that is no white space. -/
def Written (s : String) : Prop := ∃ c ∈ s.toList, isBlank c = false

instance (s : String) : Decidable (Written s) :=
  inferInstanceAs (Decidable (∃ c ∈ s.toList, isBlank c = false))

section Pieces

variable {c : Char} {separator p : Char → Bool} {gap : List Char}

theorem stripped_cons_gap (hc : separator c ∨ p c) (cs : List Char) :
    stripped separator p (c :: cs) = stripped separator p cs := by
  rw [stripped, List.splitOnP_cons_eq_if_modifyHead]
  split
  · have hnone : strip p [] = [] := rfl
    rw [List.map_cons, hnone]
    rfl
  · rename_i hpiece
    obtain ⟨first, rest, hpieces⟩ := List.exists_cons_of_ne_nil (List.splitOnP_ne_nil separator cs)
    have hstrip : strip p (c :: first) = strip p first :=
      strip_gap_append (List.forall_mem_singleton.2 (hc.resolve_left hpiece)) first
    rw [stripped, hpieces, List.modifyHead_cons, List.map_cons, List.map_cons, hstrip]

theorem stripped_gap_append (hgap : ∀ c ∈ gap, separator c ∨ p c) (cs : List Char) :
    stripped separator p (gap ++ cs) = stripped separator p cs := by
  induction gap with
  | nil => rfl
  | cons c gap ih =>
      obtain ⟨hc, hgap⟩ := List.forall_mem_cons.1 hgap
      rw [List.cons_append, stripped_cons_gap hc, ih hgap]

end Pieces

section Rows

variable {cs gap : List Char} {s : String} {lines : List String}

theorem written_iff : Written s ↔ trim s ≠ "" := by
  refine ⟨fun ⟨c, hmem, hc⟩ => trim_ne_empty hc hmem, fun h => ?_⟩
  obtain ⟨c, rest, hcons, hc⟩ := exists_of_trim_ne_empty h
  refine ⟨c, ?_, hc⟩
  rw [toList_trim] at hcons
  exact (strip_sublist isBlank s.toList).subset (hcons ▸ List.mem_cons_self)

theorem rows_nil : rows [] = [] := rfl

theorem rows_append_cons (cs ds : List Char) : rows (cs ++ '\n' :: ds) = rows cs ++ rows ds := by
  rw [rows, stripped, List.splitOnP_append_cons _ _ (by decide), List.map_append, List.filter_append]
  rfl

theorem rows_of_line (h : '\n' ∉ cs) : rows cs = [String.ofList (strip isBlank cs)].filter (· ≠ "") := by
  have hline : ∀ c ∈ cs, (c == '\n') = false := by
    intro c hc
    rw [beq_eq_false_iff_ne]
    rintro rfl
    exact h hc
  rw [rows, stripped, List.splitOnP_eq_singleton hline, List.map_singleton]

theorem rows_gap_append (hgap : ∀ c ∈ gap, isBlank c) (cs : List Char) : rows (gap ++ cs) = rows cs :=
  stripped_gap_append (fun c hc => .inr (hgap c hc)) cs

theorem rows_gap (hgap : ∀ c ∈ gap, isBlank c) : rows gap = [] := by
  rw [← List.append_nil gap, rows_gap_append hgap, rows_nil]

theorem rows_append_gap (hgap : ∀ c ∈ gap, isBlank c) (cs : List Char) : rows (cs ++ gap) = rows cs := by
  by_cases hmem : '\n' ∈ cs
  · -- the gap comes after the last line only
    obtain ⟨line, rest, hcs, -⟩ := List.eq_append_cons_of_mem hmem
    have hshorter : rest.length < cs.length := by
      rw [hcs, List.length_append, List.length_cons]
      omega
    rw [hcs, List.append_assoc, List.cons_append, rows_append_cons, rows_append_cons,
      rows_append_gap hgap rest]
  by_cases hgapped : '\n' ∈ gap
  · obtain ⟨space, more, rfl, hspace⟩ := List.eq_append_cons_of_mem hgapped
    obtain ⟨hblank, hmore⟩ := List.forall_mem_append.1 hgap
    rw [← List.append_assoc, rows_append_cons, rows_gap (List.forall_mem_cons.1 hmore).2, List.append_nil,
      rows_of_line hmem, rows_of_line (by simp [hmem, hspace]), strip_append_gap hblank]
  · rw [rows_of_line hmem, rows_of_line (by simp [hmem, hgapped]), strip_append_gap hgap]
termination_by cs.length

theorem rows_strip (cs : List Char) : rows (strip isBlank cs) = rows cs := by
  obtain ⟨before, after, hsplit, hbefore, hafter⟩ := exists_stripped isBlank cs
  generalize strip isBlank cs = inner at hsplit ⊢
  rw [hsplit, rows_append_gap hafter, rows_gap_append hbefore]

theorem break_not_mem_lines (s : String) : ∀ line ∈ Text.lines s, '\n' ∉ line.toList := by
  have hpieces : ∀ piece ∈ s.toList.splitOnP (· == '\n'), '\n' ∉ piece := fun piece hpiece hbreak =>
    absurd (not_of_mem_splitOnP hpiece _ hbreak) (by decide)
  have hended : ∀ line ∈ (s.toList.splitOnP (· == '\n')).dropLast.map fun line =>
      if line.getLast? = some '\r' then line.dropLast else line, '\n' ∉ line := by
    intro line hline
    obtain ⟨piece, hpiece, rfl⟩ := List.mem_map.1 hline
    have hplain := hpieces piece ((List.dropLast_sublist _).subset hpiece)
    split
    · exact fun hbreak => hplain ((List.dropLast_sublist _).subset hbreak)
    · exact hplain
  have hlast : '\n' ∉ (s.toList.splitOnP (· == '\n')).getLast?.getD [] := by
    cases hpiece : (s.toList.splitOnP (· == '\n')).getLast? with
    | none => exact List.not_mem_nil
    | some piece => exact hpieces piece (List.mem_of_getLast? hpiece)
  intro line hline
  obtain ⟨cs, hcs, rfl⟩ := List.mem_map.1 hline
  rw [String.toList_ofList]
  split at hcs
  · exact hended cs hcs
  · obtain hcs | hcs := List.mem_append.1 hcs
    · exact hended cs hcs
    · exact List.mem_singleton.1 hcs ▸ hlast

theorem rows_lines (h : ∀ line ∈ lines, '\n' ∉ line.toList) :
    rows (lines.flatMap fun line => line.toList ++ ['\n']) = (lines.filter (Written ·)).map trim := by
  induction lines with
  | nil => rfl
  | cons line rest ih =>
      obtain ⟨hline, hrest⟩ := List.forall_mem_cons.1 h
      rw [List.flatMap_cons, List.append_assoc, List.singleton_append, rows_append_cons, rows_of_line hline,
        ih hrest, ← trim]
      by_cases hwritten : Written line
      · rw [List.filter_cons_of_pos (by simpa using written_iff.1 hwritten), List.filter_nil,
          List.filter_cons_of_pos (by simpa using hwritten), List.map_cons, List.singleton_append]
      · rw [List.filter_cons_of_neg (by simpa using mt written_iff.2 hwritten), List.filter_nil,
          List.filter_cons_of_neg (by simpa using hwritten), List.nil_append]

def stack (lines : List String) : String :=
  trim ("\n".intercalate lines)

theorem trim_flatMap (lines : List String) :
    trim (.ofList (lines.flatMap fun line => line.toList ++ ['\n'])) = stack lines := by
  have hfeeds (line : String) (rest : List String) :
      ((line :: rest).flatMap fun line => line.toList ++ ['\n']) =
        ("\n".intercalate (line :: rest)).toList ++ ['\n'] := by
    induction rest generalizing line with
    | nil => simp
    | cons next rest ih =>
        rw [List.flatMap_cons, ih, String.intercalate_cons_cons]
        simp
  cases lines with
  | nil => rfl
  | cons line rest =>
      rw [hfeeds, stack, trim, String.toList_ofList, strip_append_gap (List.forall_mem_singleton.2 rfl), ← trim]

theorem stack_ne_empty_iff : stack lines ≠ "" ↔ ∃ line ∈ lines, Written line := by
  rw [← trim_flatMap, ← written_iff, Written, String.toList_ofList]
  constructor
  · rintro ⟨c, hmem, hc⟩
    obtain ⟨line, hline, hmem⟩ := List.mem_flatMap.1 hmem
    obtain hmem | hfeed := List.mem_append.1 hmem
    · exact ⟨line, hline, c, hmem, hc⟩
    · obtain rfl := List.mem_singleton.1 hfeed
      cases hc
  · rintro ⟨line, hline, c, hmem, hc⟩
    exact ⟨c, List.mem_flatMap.2 ⟨line, hline, List.mem_append_left _ hmem⟩, hc⟩

theorem written_stack : Written (stack lines) ↔ ∃ line ∈ lines, Written line := by
  rw [written_iff, stack, trim_trim, ← stack, stack_ne_empty_iff]

end Rows

end Text

end Advisor

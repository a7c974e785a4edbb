import Advisor.Text.Runes
import Mathlib.Data.List.DropRight

/-!
Trimmed text has nothing more to trim, and the front of it has nothing to trim at its start.
-/

namespace Advisor.Text

section Strip

variable {c : Char} {p : Char → Bool} {l cs gap : List Char}

theorem dropWhile_of_prefix (h : l <+: cs.dropWhile p) : l.dropWhile p = l := by
  refine List.dropWhile_eq_self_iff.2 fun hl => ?_
  rw [h.getElem hl]
  exact List.dropWhile_get_zero_not p cs (hl.trans_le h.length_le)

theorem strip_of_front (h : l <+: strip p cs) : strip p l = dropEndWhile p l := by
  have hdrop : l <+: cs.dropWhile p := h.trans (List.rdropWhile_prefix p _)
  rw [strip, dropWhile_of_prefix hdrop]

@[simp] theorem strip_strip (p : Char → Bool) (cs : List Char) :
    strip p (strip p cs) = strip p cs := by
  rw [strip_of_front (List.prefix_refl _)]
  exact List.rdropWhile_idempotent p _

theorem exists_strip_cons (h : strip p cs ≠ []) :
    ∃ c rest, strip p cs = c :: rest ∧ p c = false := by
  have hdrop : (strip p cs).dropWhile p = strip p cs :=
    dropWhile_of_prefix (List.rdropWhile_prefix p _)
  have hfirst := List.dropWhile_eq_self_iff.1 hdrop (List.length_pos_of_ne_nil h)
  obtain ⟨c, rest, hcons⟩ := List.exists_cons_of_ne_nil h
  simp only [hcons, List.getElem_cons_zero] at hfirst
  exact ⟨c, rest, hcons, eq_false_of_ne_true hfirst⟩

theorem not_of_mem_head?_strip (p : Char → Bool) (cs : List Char) :
    ∀ c ∈ (strip p cs).head?, ¬ p c := by
  intro c hc
  obtain ⟨rest, hrest⟩ := List.head?_eq_some_iff.1 hc
  obtain ⟨first, more, hcons, hfirst⟩ := exists_strip_cons (hrest ▸ List.cons_ne_nil c rest)
  obtain ⟨rfl, -⟩ := List.cons.inj (hrest.symm.trans hcons)
  exact ne_true_of_eq_false hfirst

theorem not_of_mem_getLast?_strip (p : Char → Bool) (cs : List Char) :
    ∀ c ∈ (strip p cs).getLast?, ¬ p c := by
  intro c hc
  obtain ⟨front, hfront⟩ := List.getLast?_eq_some_iff.1 hc
  have hne : strip p cs ≠ [] := hfront ▸ List.concat_ne_nil c front
  rw [List.getLast?_eq_some_getLast hne] at hc
  obtain rfl := Option.some.inj hc
  exact List.rdropWhile_last_not p _ hne

theorem strip_sublist (p : Char → Bool) (cs : List Char) : (strip p cs).Sublist cs := by
  rw [strip, dropEndWhile, ← List.reverse_sublist, List.reverse_reverse]
  exact (List.dropWhile_sublist p).trans (List.reverse_sublist.2 (List.dropWhile_sublist p))

theorem exists_stripped (p : Char → Bool) (cs : List Char) :
    ∃ before after, cs = before ++ strip p cs ++ after ∧ (∀ c ∈ before, p c) ∧ ∀ c ∈ after, p c := by
  refine ⟨cs.takeWhile p, ((cs.dropWhile p).reverse.takeWhile p).reverse, ?_, ?_, ?_⟩
  · rw [strip, dropEndWhile, List.append_assoc, ← List.reverse_append,
      List.takeWhile_append_dropWhile, List.reverse_reverse, List.takeWhile_append_dropWhile]
  · exact fun c hc => List.all_eq_true.1 List.all_takeWhile c hc
  · exact fun c hc => List.all_eq_true.1 List.all_takeWhile c (List.mem_reverse.1 hc)

theorem strip_append_gap (hgap : ∀ c ∈ gap, p c) (cs : List Char) :
    strip p (cs ++ gap) = strip p cs := by
  have hnone : gap.reverse.dropWhile p = [] :=
    List.dropWhile_eq_nil_iff.2 fun c hc => hgap c (List.mem_reverse.1 hc)
  rw [strip, List.dropWhile_append]
  split
  · rename_i hall
    rw [List.dropWhile_eq_nil_iff.2 hgap, strip, List.isEmpty_iff.1 hall]
  · rw [dropEndWhile, List.reverse_append, List.dropWhile_append, hnone]
    rfl

theorem strip_gap_append (hgap : ∀ c ∈ gap, p c) (cs : List Char) :
    strip p (gap ++ cs) = strip p cs := by
  rw [strip, List.dropWhile_append_of_pos hgap, strip]

theorem strip_eq_self (hfirst : ∀ c ∈ cs.head?, ¬ p c) (hlast : ∀ c ∈ cs.getLast?, ¬ p c) :
    strip p cs = cs := by
  cases cs with
  | nil => rfl
  | cons c rest =>
      rw [strip, List.dropWhile_cons_of_neg (hfirst c rfl)]
      exact List.rdropWhile_eq_self_iff.2 fun hne =>
        hlast _ (List.getLast?_eq_some_getLast hne)

theorem head?_strip_cons (hc : p c = false) (cs : List Char) : (strip p (c :: cs)).head? = some c := by
  have hfront : strip p (c :: cs) <+: c :: cs := by
    rw [strip, List.dropWhile_cons_of_neg (ne_true_of_eq_false hc)]
    exact List.rdropWhile_prefix p _
  obtain ⟨first, rest, hcons⟩ := List.exists_cons_of_ne_nil (List.ne_nil_of_mem (mem_strip List.mem_cons_self hc))
  rw [hcons] at hfront ⊢
  rw [(List.cons_prefix_cons.1 hfront).1, List.head?_cons]

end Strip

section Trim

variable {c : Char} {s : String}

theorem trim_ne_empty (hc : isBlank c = false) (hmem : c ∈ s.toList) : trim s ≠ "" := by
  intro h
  have hkept := mem_strip hmem hc
  rw [← toList_trim, h] at hkept
  cases hkept

theorem exists_of_trim_ne_empty (h : trim s ≠ "") :
    ∃ c rest, (trim s).toList = c :: rest ∧ isBlank c = false := by
  rw [toList_trim]
  exact exists_strip_cons fun hnil => h (by rw [trim, hnil])

end Trim

@[simp] theorem trim_trim (s : String) : trim (trim s) = trim s := by
  rw [trim, toList_trim, strip_strip, trim]

def trimEnd (s : String) : String :=
  .ofList (dropEndWhile isBlank s.toList)

theorem trim_truncate_trim (s : String) (limit : Nat) :
    trim (truncate (trim s) limit) = trimEnd (truncate (trim s) limit) := by
  have hfront : (truncate (trim s) limit).toList <+: strip isBlank s.toList := by
    rw [truncate, String.toList_ofList, toList_trim]
    exact List.take_prefix limit _
  rw [trim, strip_of_front hfront, trimEnd]

theorem truncate_of_le {s : String} {limit : Nat} (h : runeCount s ≤ limit) :
    truncate s limit = s := by
  rw [truncate, List.take_of_length_le h, String.ofList_toList]

theorem runeCount_trimEnd_le (s : String) : runeCount (trimEnd s) ≤ runeCount s := by
  rw [runeCount, trimEnd, String.toList_ofList]
  exact (List.rdropWhile_prefix isBlank s.toList).length_le

theorem isEmpty_truncate {s : String} {limit : Nat} (hlimit : limit ≠ 0) :
    (truncate s limit).isEmpty = s.isEmpty := by
  rw [Bool.eq_iff_iff, String.isEmpty_iff, String.isEmpty_iff, ← String.toList_eq_nil_iff,
    ← String.toList_eq_nil_iff, truncate, String.toList_ofList, List.take_eq_nil_iff]
  simp [hlimit]

theorem runeCount_truncate_le (s : String) (limit : Nat) :
    runeCount (truncate s limit) ≤ limit := by
  rw [runeCount, truncate, String.toList_ofList]
  exact List.length_take_le limit _

theorem runeCount_clip_le (s : String) {limit : Nat} (hlimit : 0 < limit) :
    runeCount (clip s limit) ≤ limit := by
  unfold clip
  dsimp only
  split
  · assumption
  · have hcut := runeCount_truncate_le (trim s) (limit - 1)
    simp only [runeCount, String.toList_push, List.length_append, List.length_singleton] at hcut ⊢
    omega

end Advisor.Text

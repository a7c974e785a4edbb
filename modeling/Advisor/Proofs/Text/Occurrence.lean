import Advisor.Text.Runes

namespace Advisor.Text

theorem occursIn_iff {needle cs : List Char} : occursIn needle cs ↔ needle <:+: cs := by
  induction cs with
  | nil => simp [occursIn]
  | cons c cs ih =>
      rw [occursIn, Bool.or_eq_true, ih, List.isPrefixOf_iff_prefix, List.infix_cons_iff]

theorem contains_iff {s needle : String} : contains s needle ↔ needle.toList <:+: s.toList :=
  occursIn_iff

/-- A small sigma, at the end of a word or not. -/
def unfinal (c : Char) : Char := if c = 'ς' then 'σ' else c

theorem lowerChar_sigma : lowerChar 'Σ' = ['σ'] := by decide +kernel

theorem lowerChar_space : lowerChar ' ' = [' '] := by decide

theorem lowerChar_stop : lowerChar '.' = ['.'] := by decide

/-- What stands around a letter decides of its lower-case form only which sigma it is. -/
theorem map_unfinal_lowerAfter (before cs : List Char) :
    (lowerAfter before cs).map unfinal = (cs.flatMap lowerChar).map unfinal := by
  induction cs generalizing before with
  | nil => rfl
  | cons c cs ih =>
      rw [lowerAfter, List.flatMap_cons, List.map_append, List.map_append, ih]
      congr 1
      split
      · subst c
        rw [lowerChar_sigma]
        split <;> rfl
      · rfl

def NoSigma (needle : List Char) : Prop := 'σ' ∉ needle ∧ 'ς' ∉ needle

instance (needle : List Char) : Decidable (NoSigma needle) :=
  inferInstanceAs (Decidable (_ ∧ _))

theorem map_unfinal_of_not_mem {cs : List Char} (h : 'ς' ∉ cs) : cs.map unfinal = cs := by
  have hself : ∀ c ∈ cs, unfinal c = id c := by
    intro c hc
    exact if_neg fun he : c = 'ς' => h (he ▸ hc)
  rw [List.map_congr_left hself, List.map_id]

theorem infix_map_unfinal {needle cs : List Char} (h : NoSigma needle) :
    needle <:+: cs.map unfinal ↔ needle <:+: cs := by
  constructor
  · intro hi
    obtain ⟨piece, hpiece, rfl⟩ := List.infix_map_iff.1 hi
    have hfinal : 'ς' ∉ piece := fun hmem => h.1 (List.mem_map_of_mem (f := unfinal) hmem)
    rwa [map_unfinal_of_not_mem hfinal]
  · intro hi
    have := hi.map unfinal
    rwa [map_unfinal_of_not_mem h.2] at this

theorem contains_lower_iff {s needle : String} (h : NoSigma needle.toList) :
    contains (lower s) needle ↔ needle.toList <:+: s.toList.flatMap lowerChar := by
  rw [contains_iff, lower, String.toList_ofList, ← infix_map_unfinal h, map_unfinal_lowerAfter,
    infix_map_unfinal h]

theorem lowerRuns_above :
    ∀ run ∈ lowerRuns, ('_'.toNat : Int) < (run.1 : Int) + run.2.2.2 := by
  simp only [← Array.mem_toList_iff]
  decide +kernel

theorem toLower_underscore : ∀ n < 0x80, '_' = (Char.ofNat n).toLower → Char.ofNat n = '_' := by
  decide +kernel

theorem toNat_ofNat_cases (n : Nat) : (Char.ofNat n).toNat = n ∨ (Char.ofNat n).toNat = 0 := by
  by_cases h : n.isValidChar
  · rw [Char.ofNat, dif_pos h]
    exact .inl rfl
  · rw [Char.ofNat, dif_neg h]
    exact .inr rfl

theorem eq_underscore_of_mem_lowerChar {c : Char} (h : '_' ∈ lowerChar c) : c = '_' := by
  unfold lowerChar at h
  simp only at h
  split at h
  · rename_i hascii
    have := toLower_underscore c.toNat hascii
    rw [Char.ofNat_toNat] at this
    exact this (List.mem_singleton.1 h)
  split at h
  · exact absurd h (by decide)
  split at h
  · rename_i lo hi stride distance hrun
    have habove := lowerRuns_above _ (Array.mem_of_find?_eq_some hrun)
    have hlo : lo ≤ c.toNat := by
      have := Array.find?_some hrun
      simp only [Bool.and_eq_true, decide_eq_true_eq] at this
      exact this.1.1
    have hcode := congrArg Char.toNat (List.mem_singleton.1 h)
    have hform := toNat_ofNat_cases ((c.toNat : Int) + distance).toNat
    rw [← hcode] at hform
    simp only [Char.reduceToNat] at habove hform
    omega
  · exact (List.mem_singleton.1 h).symm

theorem prefix_of_prefix_append_cons (before : List Char) {needle after : List Char} {sep : Char}
    (hsep : sep ∉ needle) (h : needle <+: before ++ sep :: after) : needle <+: before := by
  have hfront : before ++ [sep] <+: before ++ sep :: after := ⟨after, by simp⟩
  rcases List.prefix_or_prefix_of_prefix h hfront with hshort | hlong
  · rcases List.prefix_concat_iff.1 hshort with rfl | hbefore
    · exact absurd (by simp) hsep
    · exact hbefore
  · exact absurd (hlong.subset (by simp)) hsep

theorem infix_append_cons {needle before after : List Char} {sep : Char}
    (hsep : sep ∉ needle) (h : needle <:+: before ++ sep :: after) :
    needle <:+: before ∨ needle <:+: after := by
  induction before with
  | nil =>
      rcases List.infix_cons_iff.1 h with hp | hi
      · exact .inl (prefix_of_prefix_append_cons [] hsep hp).isInfix
      · exact .inr hi
  | cons c before ih =>
      rcases List.infix_cons_iff.1 h with hp | hi
      · exact .inl (prefix_of_prefix_append_cons (c :: before) hsep hp).isInfix
      · exact (ih hi).imp_left List.infix_cons

/-! A line is put in lower case, and searched, by itself. -/

theorem break_uncased : isCased '\n' = false ∧ isCaseIgnorable '\n' = false := by
  rw [isCased, isCaseIgnorable, ← Array.any_toList, ← Array.any_toList]
  decide +kernel

theorem nextIsCased_append_break (cs rest : List Char) :
    nextIsCased (cs ++ '\n' :: rest) = nextIsCased cs := by
  induction cs with
  | nil =>
      rw [List.nil_append, nextIsCased, List.dropWhile_cons_of_neg (by simp [break_uncased.2])]
      exact break_uncased.1
  | cons c cs ih =>
      by_cases hc : isCaseIgnorable c = true
      · rw [nextIsCased, List.cons_append, List.dropWhile_cons_of_pos hc, ← nextIsCased, ih, nextIsCased,
          nextIsCased, List.dropWhile_cons_of_pos hc]
      · rw [nextIsCased, List.cons_append, List.dropWhile_cons_of_neg hc, nextIsCased,
          List.dropWhile_cons_of_neg hc]

theorem lowerAfter_past_break (before rest cs : List Char) :
    lowerAfter (before ++ '\n' :: rest) cs = lowerAfter before cs := by
  induction cs generalizing before with
  | nil => rfl
  | cons c cs ih =>
      rw [lowerAfter, lowerAfter, nextIsCased_append_break, ← List.cons_append, ih]

theorem lowerAfter_append_break (before cs rest : List Char) :
    lowerAfter before (cs ++ '\n' :: rest) = lowerAfter before cs ++ '\n' :: lowerAfter [] rest := by
  induction cs generalizing before with
  | nil =>
      have hbreak : lowerAfter before ('\n' :: rest) = '\n' :: lowerAfter ('\n' :: before) rest := rfl
      rw [List.nil_append, hbreak, ← List.nil_append ('\n' :: before), lowerAfter_past_break]
      rfl
  | cons c cs ih =>
      rw [List.cons_append, lowerAfter, lowerAfter, nextIsCased_append_break, ih, List.append_assoc]

theorem contains_lower_lines {first second needle : String} (h : '\n' ∉ needle.toList) :
    contains (lower (first ++ "\n" ++ second)) needle =
      (contains (lower first) needle || contains (lower second) needle) := by
  have hlines : (lower (first ++ "\n" ++ second)).toList =
      (lower first).toList ++ '\n' :: (lower second).toList := by
    have htext : (first ++ "\n" ++ second).toList = first.toList ++ '\n' :: second.toList := by simp
    simp only [lower, String.toList_ofList, htext, lowerAfter_append_break]
  rw [Bool.eq_iff_iff, Bool.or_eq_true, contains_iff, contains_iff, contains_iff, hlines]
  exact ⟨infix_append_cons h, fun hi => hi.elim List.infix_append_of_infix_left fun hsecond =>
    List.infix_append_of_infix_right (List.infix_cons hsecond)⟩

end Advisor.Text

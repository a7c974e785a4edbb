import Advisor.Proofs.Knowledge.Scoring
import Advisor.Proofs.Text.Lowering
import Advisor.Proofs.Text.Trimming
import Mathlib.Data.Set.Card

/-!
The keywords of a text are the first of its content words, each once, and they are their own keywords.
-/

namespace Advisor

theorem getElem?_eraseDups_filter {α : Type} [DecidableEq α] {p : α → Bool} {as : List α} {k : Nat} {a : α} :
    (as.filter p).eraseDups[k]? = some a ↔
      ∃ before after, as = before ++ a :: after ∧ a ∉ before ∧ p a ∧
        (before.filter p).toFinset.card = k := by
  have first {before : List α} (after : List α) (hnew : a ∉ before) (ha : p a) :
      ((before ++ a :: after).filter p).eraseDups[(before.filter p).toFinset.card]? = some a := by
    have hcount : (before.filter p).toFinset.card = (before.filter p).eraseDups.length := by
      rw [← List.toFinset_card_of_nodup (nodup_eraseDups _)]
      congr 1
      ext b
      simp
    have hkept : ((a :: after).filter p).removeAll (before.filter p) =
        a :: (after.filter p).removeAll (before.filter p) := by
      rw [List.filter_cons_of_pos ha, List.cons_removeAll, if_pos]
      simp [hnew]
    rw [List.filter_append, List.eraseDups_append, hkept, List.eraseDups_cons, hcount,
      List.getElem?_append_right le_rfl, Nat.sub_self]
    rfl
  constructor
  · intro h
    obtain ⟨hmem, ha⟩ := List.mem_filter.1 (List.mem_eraseDups.1 (List.mem_of_getElem? h))
    obtain ⟨before, after, rfl, hnew⟩ := List.eq_append_cons_of_mem hmem
    refine ⟨before, after, rfl, hnew, ha, ?_⟩
    obtain ⟨hk, hkeq⟩ := List.getElem?_eq_some_iff.1 h
    obtain ⟨hj, hjeq⟩ := List.getElem?_eq_some_iff.1 (first after hnew ha)
    exact (nodup_eraseDups _).getElem_inj_iff.1 (hjeq.trans hkeq.symm)
  · rintro ⟨before, after, rfl, hnew, ha, rfl⟩
    exact first after hnew ha

namespace Knowledge

/-- A word is of letters, digits and dashes, with no dash at its ends. -/
structure IsWord (w : String) : Prop where
  runes : ∀ c ∈ w.toList, Text.isAlphanumeric c ∨ isDash c
  starts : ∃ c ∈ w.toList.head?, ¬ isDash c
  ends : ∃ c ∈ w.toList.getLast?, ¬ isDash c

/-- A word that says something of a subject. -/
structure IsContent (w : String) : Prop extends IsWord w where
  long : 3 ≤ Text.runeCount w
  telling : w ∉ englishStopWords ∧ w ∉ russianStopWords
  lowered : Text.lower w = w

def isSeparator (c : Char) : Bool := !(Text.isAlphanumeric c || isDash c)

/-- The words that stand in a text, from its front: no letter or digit stands outside them, and after a
word and its dashes the text ends or has a separator. -/
inductive Reads : List Char → List String → Prop
  | gap {gap : List Char} (hgap : ∀ c ∈ gap, ¬ Text.isAlphanumeric c) : Reads gap []
  | word {gap dashes rest : List Char} {w : String} {ws : List String}
      (hgap : ∀ c ∈ gap, ¬ Text.isAlphanumeric c) (hw : IsWord w) (hdashes : ∀ c ∈ dashes, isDash c)
      (hrest : ∀ c ∈ rest.head?, isSeparator c) (hws : Reads rest ws) :
      Reads (gap ++ (w.toList ++ dashes ++ rest)) (w :: ws)

/-- A content word that stands for the first time, `k` others before it. -/
def Appears (ws : List String) (k : Nat) (w : String) : Prop :=
  ∃ before after, ws = before ++ w :: after ∧ w ∉ before ∧ IsContent w ∧
    {v | v ∈ before ∧ IsContent v}.ncard = k

def standing (cs : List Char) : List String :=
  ((cs.splitOnP isSeparator).map fun w => String.ofList (Text.strip isDash w)).filter (· ≠ "")

section Reading

variable {c : Char} {cs gap run dashes rest : List Char} {w : String} {ws : List String}

theorem not_alphanumeric_of_isDash (h : isDash c) : ¬ Text.isAlphanumeric c := by
  simp only [isDash, Bool.or_eq_true, beq_iff_eq] at h
  obtain rfl | rfl := h <;> decide

theorem isSeparator_eq_false_iff : isSeparator c = false ↔ Text.isAlphanumeric c ∨ isDash c := by
  rw [isSeparator, Bool.not_eq_false', Bool.or_eq_true]

theorem not_alphanumeric_of_isSeparator (h : isSeparator c) : ¬ Text.isAlphanumeric c := by
  intro hc
  rw [isSeparator_eq_false_iff.2 (.inl hc)] at h
  cases h

theorem Reads.cons_gap (hc : ¬ Text.isAlphanumeric c) (h : Reads cs ws) : Reads (c :: cs) ws := by
  cases h with
  | gap hgap => exact .gap (List.forall_mem_cons.2 ⟨hc, hgap⟩)
  | word hgap hw hdashes hrest hws =>
      rw [← List.cons_append]
      exact .word (List.forall_mem_cons.2 ⟨hc, hgap⟩) hw hdashes hrest hws

theorem Reads.append_gap (hgap : ∀ c ∈ gap, ¬ Text.isAlphanumeric c) (h : Reads cs ws) :
    Reads (gap ++ cs) ws := by
  induction gap with
  | nil => exact h
  | cons c gap ih =>
      obtain ⟨hc, hgap⟩ := List.forall_mem_cons.1 hgap
      exact (ih hgap).cons_gap hc

theorem separator_or_dash (h : ¬ Text.isAlphanumeric c) : isSeparator c ∨ isDash c := by
  by_contra hneither
  obtain ⟨hsep, hdash⟩ := not_or.1 hneither
  exact hdash ((isSeparator_eq_false_iff.1 (eq_false_of_ne_true hsep)).resolve_left h)

theorem standing_cons_gap (hc : ¬ Text.isAlphanumeric c) (cs : List Char) :
    standing (c :: cs) = standing cs :=
  Text.stripped_cons_gap (separator_or_dash hc) cs

theorem standing_append_gap (hgap : ∀ c ∈ gap, ¬ Text.isAlphanumeric c) (cs : List Char) :
    standing (gap ++ cs) = standing cs :=
  Text.stripped_gap_append (fun c hc => separator_or_dash (hgap c hc)) cs

theorem strip_word (hw : IsWord w) (hdashes : ∀ c ∈ dashes, isDash c) :
    Text.strip isDash (w.toList ++ dashes) = w.toList := by
  obtain ⟨first, hfirst, hstart⟩ := hw.starts
  obtain ⟨last, hlast, hend⟩ := hw.ends
  obtain ⟨tail, htail⟩ := List.head?_eq_some_iff.1 hfirst
  obtain ⟨front, hfront⟩ := List.getLast?_eq_some_iff.1 hlast
  have hfrom : w.toList.dropWhile isDash = w.toList := by
    rw [htail, List.dropWhile_cons_of_neg hstart]
  have hto : w.toList.reverse.dropWhile isDash = w.toList.reverse := by
    rw [hfront, List.reverse_concat, List.dropWhile_cons_of_neg hend]
  rw [Text.strip_append_gap hdashes, Text.strip, hfrom, Text.dropEndWhile, hto, List.reverse_reverse]

theorem standing_word (hw : IsWord w) (hdashes : ∀ c ∈ dashes, isDash c)
    (hrest : ∀ c ∈ rest.head?, isSeparator c) :
    standing (w.toList ++ dashes ++ rest) = w :: standing rest := by
  have hrun : ∀ c ∈ w.toList ++ dashes, isSeparator c = false := by
    intro c hc
    exact isSeparator_eq_false_iff.2
      ((List.mem_append.1 hc).elim (hw.runes c) fun h => .inr (hdashes c h))
  have hne : w ≠ "" := by
    rintro rfl
    obtain ⟨first, hfirst, -⟩ := hw.starts
    cases hfirst
  have hself : String.ofList (Text.strip isDash (w.toList ++ dashes)) = w := by
    rw [strip_word hw hdashes, String.ofList_toList]
  cases rest with
  | nil =>
      have hempty : standing [] = [] := rfl
      rw [List.append_nil, hempty, standing, List.splitOnP_eq_singleton hrun]
      simp [hself, hne]
  | cons sep rest =>
      have hsep := hrest sep rfl
      rw [standing_cons_gap (not_alphanumeric_of_isSeparator hsep), standing,
        List.splitOnP_append_cons _ _ hsep, List.splitOnP_eq_singleton hrun]
      simp [standing, hself, hne]

theorem Reads.eq_standing (h : Reads cs ws) : ws = standing cs := by
  induction h with
  | @gap gap hgap =>
      have hempty : standing [] = [] := rfl
      rw [← List.append_nil gap, standing_append_gap hgap, hempty]
  | word hgap hw hdashes hrest hws ih =>
      rw [standing_append_gap hgap, standing_word hw hdashes hrest, ih]

theorem isWord_strip (hrun : ∀ c ∈ run, isSeparator c = false)
    (hne : Text.strip isDash run ≠ []) : IsWord (.ofList (Text.strip isDash run)) where
  runes c hc := by
    rw [String.toList_ofList] at hc
    exact isSeparator_eq_false_iff.1 (hrun c ((Text.strip_sublist isDash run).subset hc))
  starts := by
    obtain ⟨first, rest, hcons, hfirst⟩ := Text.exists_strip_cons hne
    rw [String.toList_ofList, hcons]
    exact ⟨first, rfl, ne_true_of_eq_false hfirst⟩
  ends := by
    rw [String.toList_ofList]
    exact ⟨_, List.getLast?_eq_some_getLast hne, List.rdropWhile_last_not isDash _ hne⟩

theorem reads_run (hrun : ∀ c ∈ run, isSeparator c = false)
    (hrest : ∀ c ∈ rest.head?, isSeparator c) (h : Reads rest ws) : ∃ ws', Reads (run ++ rest) ws' := by
  obtain ⟨before, after, hsplit, hbefore, hafter⟩ := Text.exists_stripped isDash run
  have hgap : ∀ c ∈ before, ¬ Text.isAlphanumeric c :=
    fun c hc => not_alphanumeric_of_isDash (hbefore c hc)
  by_cases hne : Text.strip isDash run = []
  · rw [hne, List.append_nil] at hsplit
    refine ⟨ws, h.append_gap fun c hc => not_alphanumeric_of_isDash ?_⟩
    rw [hsplit] at hc
    exact (List.mem_append.1 hc).elim (hbefore c) (hafter c)
  · have hword := Reads.word hgap (isWord_strip hrun hne) hafter hrest h
    rw [String.toList_ofList, ← List.append_assoc, ← List.append_assoc, ← hsplit] at hword
    exact ⟨_, hword⟩

theorem exists_reads (cs : List Char) : ∃ ws, Reads cs ws := by
  have hrun : ∀ c ∈ cs.takeWhile (!isSeparator ·), isSeparator c = false := by
    intro c hc
    simpa using List.all_eq_true.1 List.all_takeWhile c hc
  have hcs := List.takeWhile_append_dropWhile (p := (!isSeparator ·)) (l := cs)
  cases hrest : cs.dropWhile (!isSeparator ·) with
  | nil =>
      rw [← hcs, hrest]
      exact reads_run hrun (by simp) (.gap (by simp))
  | cons sep rest =>
      have hsep : isSeparator sep := by
        have := List.head?_dropWhile_not (!isSeparator ·) cs
        rw [hrest] at this
        simpa using this
      have hshorter : rest.length < cs.length := by
        rw [← hcs, hrest, List.length_append, List.length_cons]
        omega
      obtain ⟨ws, hws⟩ := exists_reads rest
      rw [← hcs, hrest]
      exact reads_run hrun (by simpa using hsep) (hws.cons_gap (not_alphanumeric_of_isSeparator hsep))
termination_by cs.length

theorem reads_iff : Reads cs ws ↔ ws = standing cs := by
  refine ⟨Reads.eq_standing, ?_⟩
  rintro rfl
  obtain ⟨ws, hws⟩ := exists_reads cs
  rwa [← hws.eq_standing]

end Reading

section Content

variable {text w : String} {ws : List String}

theorem keywords_eq (text : String) :
    keywords text = ((standing (Text.lower text).toList).filter isKeyword).eraseDups.take 12 := by
  have hkept : (fun w => isKeyword w && decide (w ≠ "")) = isKeyword := by
    funext w
    by_cases h : w = ""
    · rw [h]
      rfl
    · simp [h]
  rw [keywords, standing, List.filter_filter, hkept]
  rfl

theorem isWord_of_mem_standing {cs : List Char} (h : w ∈ standing cs) : IsWord w := by
  have hreads := reads_iff.2 (rfl : standing cs = standing cs)
  generalize standing cs = ws at h hreads
  induction hreads with
  | gap => cases h
  | word _ hw _ _ _ ih =>
      rcases List.mem_cons.1 h with rfl | h
      · exact hw
      · exact ih h

theorem mem_of_mem_standing {cs : List Char} (h : w ∈ standing cs) : w.toList ⊆ cs := by
  have hreads := reads_iff.2 (rfl : standing cs = standing cs)
  generalize standing cs = ws at h hreads
  induction hreads with
  | gap => cases h
  | word _ hw _ _ _ ih =>
      rcases List.mem_cons.1 h with rfl | h
      · intro c hc
        simp [hc]
      · intro c hc
        simp [ih h hc]

theorem isContent_iff (h : w ∈ standing (Text.lower text).toList) : IsContent w ↔ isKeyword w := by
  have hlowered : Text.lower w = w := Text.lower_eq_self_iff.2 fun c hc =>
    Text.lowered_of_mem_lower (mem_of_mem_standing h hc)
  have hword := isWord_of_mem_standing h
  have hkey : isKeyword w ↔ 3 ≤ Text.runeCount w ∧ w ∉ englishStopWords ∧ w ∉ russianStopWords := by
    rw [isKeyword, Bool.and_eq_true, decide_eq_true_eq]
    refine and_congr .rfl ?_
    simp [isStopWord]
  rw [hkey]
  exact ⟨fun hc => ⟨hc.long, hc.telling⟩, fun ⟨hlong, htelling⟩ => ⟨hword, hlong, htelling, hlowered⟩⟩

theorem of_mem_keywords (h : w ∈ keywords text) :
    w ∈ standing (Text.lower text).toList ∧ isKeyword w := by
  rw [keywords_eq] at h
  exact List.mem_filter.1 (List.mem_eraseDups.1 (List.mem_of_mem_take h))

theorem isContent_of_mem_keywords (h : w ∈ keywords text) : IsContent w :=
  (isContent_iff (of_mem_keywords h).1).2 (of_mem_keywords h).2

theorem getElem?_keywords {k : Nat} :
    (keywords text)[k]? = some w ↔ k < 12 ∧ Appears (standing (Text.lower text).toList) k w := by
  rw [keywords_eq, List.getElem?_take, ite_eq_iff]
  simp only [reduceCtorEq, and_false, or_false]
  refine and_congr_right fun _ => ?_
  rw [getElem?_eraseDups_filter, Appears]
  refine exists_congr fun before => exists_congr fun after => and_congr_right fun hws => ?_
  have hcontent : ∀ v ∈ before ++ w :: after, IsContent v ↔ isKeyword v := by
    intro v hv
    rw [← hws] at hv
    exact isContent_iff hv
  have hkinds : {v | v ∈ before ∧ IsContent v} = ((before.filter isKeyword).toFinset : Set String) := by
    ext v
    rw [List.coe_toFinset, Set.mem_ofPred_eq, Set.mem_ofPred_eq, List.mem_filter]
    exact and_congr_right fun hv => hcontent v (List.mem_append_left _ hv)
  rw [hkinds, Set.ncard_coe_finset, hcontent w (by simp)]

theorem Reads.cons (hw : IsWord w) (hrest : ∀ c ∈ rest.head?, isSeparator c) (hws : Reads rest ws) :
    Reads (w.toList ++ rest) (w :: ws) := by
  have h : Reads ([] ++ (w.toList ++ [] ++ rest)) (w :: ws) := .word (by simp) hw (by simp) hrest hws
  rwa [List.nil_append, List.append_nil] at h

theorem reads_intercalate (hws : ∀ w ∈ ws, IsWord w) : Reads (" ".intercalate ws).toList ws := by
  induction ws with
  | nil => exact .gap (by simp)
  | cons w ws ih =>
      obtain ⟨hw, hws⟩ := List.forall_mem_cons.1 hws
      cases ws with
      | nil =>
          rw [String.intercalate_singleton, ← List.append_nil w.toList]
          exact .cons hw (by simp) (.gap (by simp))
      | cons v ws =>
          have hspace : isSeparator ' ' := by decide
          rw [String.intercalate_cons_cons, String.toList_append, String.toList_append, List.append_assoc]
          exact .cons hw (by simpa using hspace) ((ih hws).cons_gap (not_alphanumeric_of_isSeparator hspace))

theorem lower_intercalate (hws : ∀ w ∈ ws, Text.lower w = w) :
    Text.lower (" ".intercalate ws) = " ".intercalate ws := by
  rw [Text.lower_eq_self_iff]
  induction ws with
  | nil => simp
  | cons w ws ih =>
      obtain ⟨hw, hws⟩ := List.forall_mem_cons.1 hws
      have hletters := Text.lower_eq_self_iff.1 hw
      cases ws with
      | nil => rwa [String.intercalate_singleton]
      | cons v ws =>
          have hspace : ∀ c ∈ " ".toList, Text.Lowered c := fun c hc => by
            rw [List.mem_singleton.1 hc]
            exact Text.lowerChar_space
          rw [String.intercalate_cons_cons, String.toList_append, String.toList_append]
          exact List.forall_mem_append.2 ⟨List.forall_mem_append.2 ⟨hletters, hspace⟩, ih hws⟩

theorem keywords_intercalate (text : String) :
    keywords (" ".intercalate (keywords text)) = keywords text := by
  have hcontent : ∀ w ∈ keywords text, IsContent w := fun w => isContent_of_mem_keywords
  have hreads := reads_intercalate fun w hw => (hcontent w hw).toIsWord
  have hlower := lower_intercalate fun w hw => (hcontent w hw).lowered
  have hkept : (keywords text).filter isKeyword = keywords text :=
    List.filter_eq_self.2 fun w hw => (of_mem_keywords hw).2
  rw [keywords_eq, hlower, ← hreads.eq_standing, hkept, eraseDups_of_nodup (nodup_keywords text),
    List.take_of_length_le (length_keywords_le text)]

/-- A text reads in one way, and its keywords are the first twelve content words that appear in it. -/
theorem keywords_normal_form (text : String) :
    (keywords text).length ≤ 12 ∧ (keywords text).Nodup ∧ (∀ w ∈ keywords text, IsContent w) ∧
      (∃ ws, (∀ read, Reads (Text.lower text).toList read ↔ read = ws) ∧
        ∀ k w, (keywords text)[k]? = some w ↔ k < 12 ∧ Appears ws k w) ∧
      keywords (" ".intercalate (keywords text)) = keywords text :=
  ⟨length_keywords_le text, nodup_keywords text, fun _ => isContent_of_mem_keywords,
    ⟨_, fun _ => reads_iff, fun _ _ => getElem?_keywords⟩, keywords_intercalate text⟩

example :
    keywords "Where is the __Stop-Loss__ of my BTC bot: the stop-loss?" = ["stop-loss", "btc", "bot"] := by
  decide +kernel

end Content

end Knowledge
end Advisor

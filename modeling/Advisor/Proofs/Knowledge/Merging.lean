import Advisor.Knowledge.Web
import Mathlib.Data.List.Infix
import Mathlib.Data.List.Nodup

/-!
What becomes of the results of a search: which are taken to be one, and which are shown.
-/

namespace Advisor.Knowledge.Web

section First

variable {α : Type} {key : α → String} {seen seen' : List String}

theorem firstBy_sublist (key : α → String) (seen : List String) (as : List α) :
    (firstBy key seen as).Sublist as := by
  induction as generalizing seen with
  | nil => exact .slnil
  | cons a as ih =>
      rw [firstBy]
      split
      · exact (ih seen).cons a
      · exact (ih _).cons_cons a

theorem firstBy_cons_of_mem {a : α} (h : key a ∈ seen) (as : List α) :
    firstBy key seen (a :: as) = firstBy key seen as := by
  rw [firstBy, if_pos (by simpa using h)]

theorem firstBy_cons_of_not_mem {a : α} (h : key a ∉ seen) (as : List α) :
    firstBy key seen (a :: as) = a :: firstBy key (key a :: seen) as := by
  rw [firstBy, if_neg (by simpa using h)]

theorem firstBy_congr (h : ∀ k, k ∈ seen ↔ k ∈ seen') (as : List α) :
    firstBy key seen as = firstBy key seen' as := by
  induction as generalizing seen seen' with
  | nil => rfl
  | cons a as ih =>
      by_cases ha : key a ∈ seen
      · rw [firstBy_cons_of_mem ha, firstBy_cons_of_mem ((h _).1 ha), ih h]
      · rw [firstBy_cons_of_not_mem ha, firstBy_cons_of_not_mem (mt (h _).2 ha)]
        refine congrArg _ (ih fun k => ?_)
        rw [List.mem_cons, List.mem_cons, h k]

theorem firstBy_append (as bs : List α) :
    firstBy key seen (as ++ bs) =
      firstBy key seen as ++ firstBy key (as.map key ++ seen) bs := by
  induction as generalizing seen with
  | nil => rfl
  | cons a as ih =>
      by_cases ha : key a ∈ seen
      · rw [List.cons_append, firstBy_cons_of_mem ha, firstBy_cons_of_mem ha, ih]
        refine congrArg _ (firstBy_congr (fun k => ?_) bs)
        simp only [List.map_cons, List.cons_append, List.mem_append, List.mem_cons]
        constructor
        · exact .inr
        · rintro (rfl | hk)
          · exact .inr ha
          · exact hk
      · rw [List.cons_append, firstBy_cons_of_not_mem ha, firstBy_cons_of_not_mem ha, ih]
        refine congrArg (a :: firstBy key (key a :: seen) as ++ ·) (firstBy_congr (fun k => ?_) bs)
        simp only [List.map_cons, List.cons_append, List.mem_append, List.mem_cons]
        exact or_left_comm

theorem firstBy_distinct (seen : List String) (as : List α) :
    ((firstBy key seen as).map key).Nodup ∧ ∀ a ∈ firstBy key seen as, key a ∉ seen := by
  induction as generalizing seen with
  | nil => exact ⟨List.nodup_nil, nofun⟩
  | cons a as ih =>
      by_cases ha : key a ∈ seen
      · rw [firstBy_cons_of_mem ha]
        exact ih seen
      · obtain ⟨hnodup, hnew⟩ := ih (key a :: seen)
        rw [firstBy_cons_of_not_mem ha]
        refine ⟨List.nodup_cons.2 ⟨fun hmem => ?_, hnodup⟩, fun b hb => ?_⟩
        · obtain ⟨b, hb, hkey⟩ := List.mem_map.1 hmem
          exact hnew b hb (hkey ▸ List.mem_cons_self)
        · rcases List.mem_cons.1 hb with rfl | hb
          · exact ha
          · exact fun hseen => hnew b hb (List.mem_cons_of_mem _ hseen)

theorem exists_mem_firstBy {a : α} {as : List α} (ha : a ∈ as) (hnew : key a ∉ seen) :
    ∃ b ∈ firstBy key seen as, key b = key a := by
  induction as generalizing seen with
  | nil => cases ha
  | cons c as ih =>
      by_cases hc : key c ∈ seen
      · rw [firstBy_cons_of_mem hc]
        rcases List.mem_cons.1 ha with rfl | ha
        · exact absurd hc hnew
        · exact ih ha hnew
      · rw [firstBy_cons_of_not_mem hc]
        by_cases hkey : key c = key a
        · exact ⟨c, List.mem_cons_self, hkey⟩
        · rcases List.mem_cons.1 ha with rfl | ha
          · exact absurd rfl hkey
          · have hstill : key a ∉ key c :: seen := by
              rw [List.mem_cons, not_or]
              exact ⟨Ne.symm hkey, hnew⟩
            obtain ⟨b, hb, hsame⟩ := ih ha hstill
            exact ⟨b, List.mem_cons_of_mem _ hb, hsame⟩

end First

section Shown

variable {locale : Locale} {kept blanks results : List Result} {seen : List String} {r : Result}

/-- Results as they come, each shown unless it has nothing to show or one of its key is shown already, until
there are enough. -/
def scan (locale : Locale) (kept : List Result) : List Result → List Snippet
  | [] => []
  | r :: rs =>
      if kept.length = maxSnippets then []
      else if r.isBlank ∨ r.key ∈ kept.map Result.key then scan locale kept rs
      else r.snippet locale (maxSnippets - kept.length) :: scan locale (r :: kept) rs

/-- The results that no blank one comes before under the same key. -/
def unshadowed (blanks : List Result) : List Result → List Result
  | [] => []
  | r :: rs =>
      if r.key ∈ blanks.map Result.key then unshadowed blanks rs
      else r :: unshadowed (if r.isBlank then r :: blanks else blanks) rs

/-- The results that are left to be shown when the keys in `seen` have been. -/
def visible (seen : List String) (results : List Result) : List Result :=
  (firstBy Result.key seen results).filter (!·.isBlank)

theorem visible_cons_of_mem (h : r.key ∈ seen) : visible seen (r :: results) = visible seen results := by
  rw [visible, firstBy_cons_of_mem h, visible]

theorem visible_cons_of_blank (h : r.key ∉ seen) (hblank : r.isBlank) :
    visible seen (r :: results) = visible (r.key :: seen) results := by
  rw [visible, firstBy_cons_of_not_mem h, List.filter_cons_of_neg (by simpa using hblank), visible]

theorem visible_cons_of_shown (h : r.key ∉ seen) (hshown : ¬ r.isBlank) :
    visible seen (r :: results) = r :: visible (r.key :: seen) results := by
  rw [visible, firstBy_cons_of_not_mem h, List.filter_cons_of_pos (by simpa using hshown), visible]

theorem scan_of_full (h : kept.length = maxSnippets) (results : List Result) :
    scan locale kept results = [] := by
  cases results with
  | nil => rfl
  | cons r rs => rw [scan, if_pos h]

theorem scan_cons_of_skipped (h : r.isBlank ∨ r.key ∈ kept.map Result.key) :
    scan locale kept (r :: results) = scan locale kept results := by
  by_cases hfull : kept.length = maxSnippets
  · rw [scan_of_full hfull, scan_of_full hfull]
  · rw [scan, if_neg hfull, if_pos h]

/-- Every key that was seen is that of a result that is shown or blank. By induction on the results, with
the numbers of those that are shown so far. -/
theorem scan_unshadowed (hfew : kept.length ≤ maxSnippets)
    (hseen : ∀ k, k ∈ seen ↔ k ∈ kept.map Result.key ∨ k ∈ blanks.map Result.key) :
    scan locale kept (unshadowed blanks results) =
      (((visible seen results).take (maxSnippets - kept.length)).zipIdx kept.length).map
        fun (r, i) => r.snippet locale (maxSnippets - i) := by
  induction results generalizing kept blanks seen with
  | nil => simp [unshadowed, scan, visible, firstBy]
  | cons r rs ih =>
      rw [unshadowed]
      by_cases hblanks : r.key ∈ blanks.map Result.key
      · rw [if_pos hblanks, ih hfew hseen, visible_cons_of_mem ((hseen _).2 (.inr hblanks))]
      rw [if_neg hblanks]
      by_cases hkept : r.key ∈ kept.map Result.key
      · rw [scan_cons_of_skipped (.inr hkept), visible_cons_of_mem ((hseen _).2 (.inl hkept))]
        refine ih hfew fun k => (hseen k).trans ?_
        by_cases hblank : r.isBlank
        · rw [if_pos hblank, List.map_cons, List.mem_cons]
          refine ⟨fun h => h.imp_right .inr, ?_⟩
          rintro (hk | rfl | hk)
          · exact .inl hk
          · exact .inl hkept
          · exact .inr hk
        · rw [if_neg hblank]
      have hnew : r.key ∉ seen := mt (hseen _).1 (not_or.2 ⟨hkept, hblanks⟩)
      by_cases hblank : r.isBlank
      · rw [scan_cons_of_skipped (.inl hblank), visible_cons_of_blank hnew hblank, if_pos hblank]
        refine ih hfew fun k => ?_
        rw [List.map_cons, List.mem_cons, List.mem_cons, hseen k]
        exact or_left_comm
      by_cases hfull : kept.length = maxSnippets
      · rw [scan_of_full hfull, hfull, Nat.sub_self]
        rfl
      · have hroom : (r :: kept).length ≤ maxSnippets := Nat.lt_of_le_of_ne hfew hfull
        have hleft : maxSnippets - kept.length = (maxSnippets - (kept.length + 1)) + 1 := by omega
        rw [scan, if_neg hfull, if_neg (not_or.2 ⟨hblank, hkept⟩), if_neg hblank,
          visible_cons_of_shown hnew hblank]
        have hseen' : ∀ k, k ∈ r.key :: seen ↔
            k ∈ (r :: kept).map Result.key ∨ k ∈ blanks.map Result.key := by
          intro k
          rw [List.map_cons, List.mem_cons, List.mem_cons, hseen k]
          exact or_assoc.symm
        rw [ih hroom hseen', hleft, List.take_succ_cons, List.zipIdx_cons, List.map_cons, ← hleft,
          List.length_cons]

/-- What is shown of results, one of each key and at most so many. A result that could be shown is missing
only after a blank one of its key, or after the last that is shown. -/
structure Shows (results kept : List Result) : Prop where
  few : kept.length ≤ maxSnippets
  inOrder : kept.Sublist results
  shown : ∀ r ∈ kept, ¬ r.isBlank
  distinct : (kept.map Result.key).Nodup
  accounted : ∀ before r after, results = before ++ r :: after → ¬ r.isBlank →
    (∃ k ∈ kept, k.key = r.key) ∨ (∃ b ∈ before, b.isBlank ∧ b.key = r.key) ∨
      kept.length = maxSnippets ∧ kept.Sublist before

theorem visible_sublist (seen : List String) (results : List Result) :
    (visible seen results).Sublist results :=
  List.filter_sublist.trans (firstBy_sublist _ _ _)

theorem visible_append (before after : List Result) :
    visible [] (before ++ after) = visible [] before ++ visible (before.map Result.key) after := by
  rw [visible, firstBy_append, List.filter_append, List.append_nil]
  rfl

theorem shows_take (results : List Result) : Shows results ((visible [] results).take maxSnippets) where
  few := List.length_take_le _ _
  inOrder := (List.take_sublist _ _).trans (visible_sublist _ _)
  shown r hr := by simpa using (List.mem_filter.1 (List.mem_of_mem_take hr)).2
  distinct := by
    have hsublist := (List.take_sublist maxSnippets (visible [] results)).trans List.filter_sublist
    exact (hsublist.map Result.key).nodup (firstBy_distinct [] results).1
  accounted := by
    rintro before r after rfl hshown
    rw [visible_append]
    by_cases hfull : maxSnippets ≤ (visible [] before).length
    · refine .inr (.inr ?_)
      rw [List.take_append_of_le_length hfull]
      exact ⟨List.length_take_of_le hfull, (List.take_sublist _ _).trans (visible_sublist _ _)⟩
    have hroom : (visible [] before).length < maxSnippets := Nat.lt_of_not_le hfull
    by_cases hkey : r.key ∈ before.map Result.key
    · obtain ⟨a, ha, hsame⟩ := List.mem_map.1 hkey
      have hnew : a.key ∉ ([] : List String) := List.not_mem_nil
      obtain ⟨b, hb, hfirst⟩ := exists_mem_firstBy ha hnew
      by_cases hblank : b.isBlank
      · exact .inr (.inl ⟨b, (firstBy_sublist _ _ _).mem hb, hblank, hfirst.trans hsame⟩)
      · refine .inl ⟨b, ?_, hfirst.trans hsame⟩
        rw [List.take_append, List.take_of_length_le hroom.le]
        exact List.mem_append_left _ (List.mem_filter.2 ⟨hb, by simpa using hblank⟩)
    · refine .inl ⟨r, ?_, rfl⟩
      rw [visible_cons_of_shown hkey hshown, List.take_append, List.take_of_length_le hroom.le]
      refine List.mem_append_right _ ?_
      rw [← Nat.succ_pred_eq_of_pos (Nat.sub_pos_of_lt hroom), List.take_succ_cons]
      exact List.mem_cons_self

theorem map_zipIdx_eq_zipWith (h : kept.length ≤ maxSnippets) :
    (kept.zipIdx.map fun (r, i) => r.snippet locale (maxSnippets - i)) =
      List.zipWith (Result.snippet locale) [4, 3, 2, 1] kept := by
  match kept, h with
  | [], _ | [_], _ | [_, _], _ | [_, _, _], _ | [_, _, _, _], _ => rfl
  | _ :: _ :: _ :: _ :: _ :: _, h => exact absurd h (by simp [maxSnippets])

/-- A result is shown unless it is blank or another of its key comes first. A blank one that comes first is
not shown itself. -/
theorem merge_scans (results : List Result) (locale : Locale) :
    merge results locale = scan locale [] (unshadowed [] results) ∧
      ∃ kept, Shows results kept ∧
        merge results locale = List.zipWith (Result.snippet locale) [4, 3, 2, 1] kept := by
  refine ⟨?_, _, shows_take results, map_zipIdx_eq_zipWith (shows_take results).few⟩
  have hseen : ∀ k, k ∈ ([] : List String) ↔
      k ∈ ([] : List Result).map Result.key ∨ k ∈ ([] : List Result).map Result.key := by simp
  exact (scan_unshadowed (Nat.zero_le _) hseen).symm

/-- A blank result keeps a later one of its address from being shown. -/
theorem blank_shadows :
    merge [⟨"", "https://a.example", ""⟩, ⟨"A", "https://a.example", "a"⟩] .en = [] ∧
      (scan .en [] [⟨"", "https://a.example", ""⟩, ⟨"A", "https://a.example", "a"⟩]).map (·.title) =
        ["A"] := by
  decide +kernel

end Shown

section Keys

/-- An address without what does not tell it from another. -/
def Result.address (r : Result) : String :=
  .ofList (Text.dropEndWhile (· == '/') (Text.trim r.url).toList)

def Result.unaddressed (r : Result) : Bool :=
  (Text.trim r.url).isEmpty

def Result.name (r : Result) : String :=
  Text.normalize r.title

def Result.opening (r : Result) : String :=
  Text.truncate (Text.normalize r.content) prefixRunes

/-- Two results of one address, or two without any that have the same title and begin alike. -/
def Alike (a b : Result) : Prop :=
  (a.unaddressed = false ∧ b.unaddressed = false ∧ a.address = b.address) ∨
    (a.unaddressed ∧ b.unaddressed ∧ a.name = b.name ∧ a.opening = b.opening)

instance (a b : Result) : Decidable (Alike a b) :=
  inferInstanceAs (Decidable (_ ∨ _))

/-- The title of the one goes on where the content of the other begins, over a bar. -/
def Straddles (a b : Result) : Prop :=
  a.unaddressed ∧ b.unaddressed ∧
    ∃ middle, b.name = a.name ++ "|" ++ middle ∧ a.opening = middle ++ "|" ++ b.opening

theorem key_of_unaddressed {r : Result} (h : r.unaddressed) :
    r.key = "text:" ++ r.name ++ "|" ++ r.opening :=
  if_pos h

theorem key_of_addressed {r : Result} (h : r.unaddressed = false) : r.key = "url:" ++ r.address :=
  if_neg (by simpa [Result.unaddressed] using h)

theorem text_ne_url (s t : String) : "text:" ++ s ≠ "url:" ++ t := by
  intro h
  have hchars := congrArg String.toList h
  simp at hchars

theorem barred_of_longer {s t s' t' : String} {m : List Char} (hs : s'.toList = s.toList ++ m)
    (ht : '|' :: t.toList = m ++ '|' :: t'.toList) :
    (s = s' ∧ t = t') ∨ ∃ middle, s' = s ++ "|" ++ middle ∧ t = middle ++ "|" ++ t' := by
  have hbar : ("|" : String).toList = ['|'] := rfl
  simp only [← String.toList_inj, String.toList_append, hbar]
  cases m with
  | nil =>
      obtain ⟨-, ht⟩ := List.cons.inj ht
      exact .inl ⟨by rw [hs, List.append_nil], ht⟩
  | cons c m =>
      obtain ⟨rfl, htail⟩ := List.cons.inj ht
      refine .inr ⟨.ofList m, ?_, ?_⟩
      · rw [hs, String.toList_ofList, List.append_assoc, List.singleton_append]
      · rw [htail, String.toList_ofList, List.append_assoc, List.singleton_append]
        rfl

theorem barred_eq_iff {s t s' t' : String} :
    s ++ "|" ++ t = s' ++ "|" ++ t' ↔
      (s = s' ∧ t = t') ∨ (∃ middle, s' = s ++ "|" ++ middle ∧ t = middle ++ "|" ++ t') ∨
        ∃ middle, s = s' ++ "|" ++ middle ∧ t' = middle ++ "|" ++ t := by
  constructor
  · intro h
    have hchars : s.toList ++ '|' :: t.toList = s'.toList ++ '|' :: t'.toList := by
      simpa using congrArg String.toList h
    rcases List.append_eq_append_iff.1 hchars with ⟨m, hs, ht⟩ | ⟨m, hs, ht⟩
    · exact (barred_of_longer hs ht).imp_right .inl
    · exact (barred_of_longer hs ht).imp (fun h => ⟨h.1.symm, h.2.symm⟩) .inr
  · rintro (⟨rfl, rfl⟩ | ⟨m, rfl, rfl⟩ | ⟨m, rfl, rfl⟩)
    · rfl
    · simp only [String.append_assoc]
    · simp only [String.append_assoc]

/-- Results have one key when they are alike. Where titles have bars in them, others may have too. -/
theorem key_eq_iff (a b : Result) :
    a.key = b.key ↔ Alike a b ∨ Straddles a b ∨ Straddles b a := by
  cases ha : a.unaddressed <;> cases hb : b.unaddressed
  · rw [key_of_addressed ha, key_of_addressed hb, Alike, Straddles, Straddles]
    simp [ha, hb]
  · rw [key_of_addressed ha, key_of_unaddressed hb, Alike, Straddles, Straddles]
    simpa [ha, hb, String.append_assoc] using (text_ne_url _ _).symm
  · rw [key_of_unaddressed ha, key_of_addressed hb, Alike, Straddles, Straddles]
    simpa [ha, hb, String.append_assoc] using text_ne_url _ _
  · rw [key_of_unaddressed ha, key_of_unaddressed hb, Alike, Straddles, Straddles]
    have hcancel (s t : String) : "text:" ++ s = "text:" ++ t ↔ s = t := by simp
    simp only [String.append_assoc, hcancel]
    simp only [← String.append_assoc, barred_eq_iff, ha, hb, true_and, Bool.true_eq_false, false_and,
      false_or]

/-- Two results without an address whose titles differ may have one key. -/
theorem bar_confuses :
    Result.key ⟨"a|b", "", "c"⟩ = Result.key ⟨"a", "", "b|c"⟩ ∧
      ¬ Alike ⟨"a|b", "", "c"⟩ ⟨"a", "", "b|c"⟩ := by
  decide +kernel

end Keys

end Advisor.Knowledge.Web

import Advisor.Knowledge.Page
import Advisor.Proofs.Distinct
import Advisor.Proofs.Text.Occurrence
import Advisor.Proofs.Text.Rows
import Mathlib.Data.Finset.Card
import Mathlib.Data.Finset.Lattice.Fold
import Mathlib.Order.Lattice.Nat

/-!
What a page is worth to a query: as many of its keywords as occur in one chapter, wherever there are most.
-/

namespace Advisor

namespace Knowledge

section Keywords

variable {query k : String}

theorem nodup_keywords (query : String) : (keywords query).Nodup :=
  (nodup_eraseDups _).sublist (List.take_sublist ..)

theorem length_keywords_le (query : String) : (keywords query).length ≤ 12 := List.length_take_le ..

theorem break_not_mem_keyword (hk : k ∈ keywords query) : '\n' ∉ k.toList := by
  have hword : k ∈ plainWords query :=
    List.mem_of_mem_filter (List.mem_eraseDups.1 (List.mem_of_mem_take hk))
  obtain ⟨piece, hpiece, rfl⟩ := List.mem_map.1 hword
  intro hbreak
  rw [String.toList_ofList] at hbreak
  have hletter := not_of_mem_splitOnP hpiece _ ((Text.strip_sublist isDash piece).subset hbreak)
  exact absurd hletter (by decide +kernel)

end Keywords

section Hits

variable {query : String} {c : Chapter} {chapters : List Chapter}

/-- The keywords of a query that occur in a chapter, in its heading or in its body. -/
def Chapter.matched (query : String) (c : Chapter) : Finset String :=
  (keywords query).toFinset.filter fun k =>
    Text.contains (Text.lower c.heading) k || Text.contains (Text.lower c.body) k

theorem Chapter.keywordHits_eq (query : String) (c : Chapter) :
    keywordHits (c.heading ++ "\n" ++ c.body) (keywords query) = (c.matched query).card := by
  have hoccurs : ∀ k ∈ keywords query, Text.contains (Text.lower (c.heading ++ "\n" ++ c.body)) k =
      (Text.contains (Text.lower c.heading) k || Text.contains (Text.lower c.body) k) :=
    fun _ hk => Text.contains_lower_lines (break_not_mem_keyword hk)
  rw [keywordHits, List.countP_eq_length_filter, List.filter_congr hoccurs, matched,
    ← List.toFinset_filter, List.toFinset_card_of_nodup ((nodup_keywords _).filter _)]

theorem Chapter.rank_fst (query : String) (c : Chapter) :
    (c.rank (keywords query)).1 = (c.matched query).card := by
  rw [← c.keywordHits_eq, rank]

theorem Chapter.card_matched_le (query : String) (c : Chapter) : (c.matched query).card ≤ 12 :=
  (Finset.card_filter_le ..).trans
    ((List.toFinset_card_le _).trans (length_keywords_le query))

theorem fst_le_of_rankLE {a b : Nat × Nat} (h : rankLE a b = true) : a.1 ≤ b.1 := by
  simp only [rankLE, Bool.or_eq_true, Bool.and_eq_true, decide_eq_true_eq, beq_iff_eq] at h
  omega

theorem fst_le_of_not_rankLE {a b : Nat × Nat} (h : ¬rankLE a b = true) : b.1 ≤ a.1 := by
  simp only [rankLE, Bool.or_eq_true, Bool.and_eq_true, decide_eq_true_eq, beq_iff_eq] at h
  omega

/-- Of the chapters none has more hits than the best. -/
structure IsBest (ks : List String) (chapters : List Chapter) (c : Chapter) : Prop where
  mem : c ∈ chapters
  most : ∀ c' ∈ chapters, (c'.rank ks).1 ≤ (c.rank ks).1

theorem exists_best (ks : List String) (hchapters : chapters ≠ []) :
    ∃ c, bestChapter? ks chapters = some c ∧ IsBest ks chapters c := by
  have hfold (rest : List Chapter) (best : Chapter) :
      ∃ c, bestChapter? ks (best :: rest) = some c ∧ IsBest ks (best :: rest) c := by
    induction rest generalizing best with
    | nil => exact ⟨best, rfl, ⟨.head _, by simp⟩⟩
    | cons next rest ih =>
        by_cases hnext : rankLE (best.rank ks) (next.rank ks) = true
        · have hstep : bestChapter? ks (best :: next :: rest) = bestChapter? ks (next :: rest) := by
            simp only [bestChapter?, List.foldl_cons, hnext, if_true]
          obtain ⟨c, hc, hbest⟩ := ih next
          refine ⟨c, hstep.trans hc, ⟨.tail _ hbest.mem, List.forall_mem_cons.2 ⟨?_, hbest.most⟩⟩⟩
          exact (fst_le_of_rankLE hnext).trans (hbest.most next (.head _))
        · have hstep : bestChapter? ks (best :: next :: rest) = bestChapter? ks (best :: rest) := by
            simp only [bestChapter?, List.foldl_cons, if_neg hnext]
          obtain ⟨c, hc, hbest⟩ := ih best
          obtain ⟨hle, hrest⟩ := List.forall_mem_cons.1 hbest.most
          refine ⟨c, hstep.trans hc, ⟨?_, ?_⟩⟩
          · exact (List.mem_cons.1 hbest.mem).elim (fun h => h ▸ .head _) fun h => .tail _ (.tail _ h)
          · exact List.forall_mem_cons.2 ⟨hle,
              List.forall_mem_cons.2 ⟨(fst_le_of_not_rankLE hnext).trans hle, hrest⟩⟩
  obtain ⟨first, rest, rfl⟩ := List.exists_cons_of_ne_nil hchapters
  exact hfold rest first

end Hits

namespace Page

/-- The most keywords that occur in one chapter of a page. -/
def score (query : String) (page : Page) : Nat :=
  (Chapter.ofMarkdown page.content).toFinset.sup fun c => (c.matched query).card

/-- What a snippet shows of a page: a text from it under a heading, and its hits. -/
def quote (repo : String) (locale : Locale) (page : Page) (heading text : String) (hits : Nat) :
    Snippet where
  source := page.source
  title := Text.replaceChar '-' ' ' page.slug
  page := page.slug
  chapter := heading
  locale := locale.name
  url := page.url repo
  content := Text.clip text 1800
  score := Float.ofNat hits

variable {query : String} {page : Page} {c : Chapter}

@[simp] theorem content_quote (repo : String) (locale : Locale) (page : Page) (heading text : String)
    (hits : Nat) : (page.quote repo locale heading text hits).content = Text.clip text 1800 := by
  simp only [quote]

@[simp] theorem score_quote (repo : String) (locale : Locale) (page : Page) (heading text : String)
    (hits : Nat) : (page.quote repo locale heading text hits).score = Float.ofNat hits := rfl

theorem score_le (query : String) (page : Page) : page.score query ≤ 12 :=
  Finset.sup_le fun c _ => c.card_matched_le query

theorem score_of_best (h : IsBest (keywords query) (Chapter.ofMarkdown page.content) c) :
    (c.rank (keywords query)).1 = page.score query := by
  refine Nat.le_antisymm ?_ (Finset.sup_le fun c' hc' => ?_)
  · rw [c.rank_fst]
    exact Finset.le_sup (f := fun c => (Chapter.matched query c).card) (List.mem_toFinset.2 h.mem)
  · rw [← c'.rank_fst]
    exact h.most c' (List.mem_toFinset.1 hc')

theorem excerpt_of_pos (h : 0 < page.score query) :
    ∃ c ∈ Chapter.ofMarkdown page.content, (c.matched query).card = page.score query ∧
      page.excerpt (keywords query) = (page.score query, c.heading, c.body) := by
  have hchapters : Chapter.ofMarkdown page.content ≠ [] := by
    intro hnone
    rw [score, hnone] at h
    exact absurd h (Nat.lt_irrefl 0)
  obtain ⟨c, hc, hbest⟩ := exists_best (keywords query) hchapters
  have hhits := score_of_best hbest
  refine ⟨c, hbest.mem, c.rank_fst query ▸ hhits, ?_⟩
  simp only [excerpt, hc, hhits, h, if_true]

theorem excerpt_of_zero (h : page.score query = 0) :
    page.excerpt (keywords query) = (0, "", page.content) := by
  by_cases hchapters : Chapter.ofMarkdown page.content = []
  · simp only [excerpt, hchapters, bestChapter?, List.foldl_nil]
  · obtain ⟨c, hc, hbest⟩ := exists_best (keywords query) hchapters
    simp only [excerpt, hc, score_of_best hbest, h, Nat.lt_irrefl, if_false]

theorem snippet_eq_quote (repo : String) (locale : Locale) {ks : List String}
    (h : page.excerpt ks = (hits, heading, text)) :
    page.snippet repo locale ks = page.quote repo locale heading text hits := by
  simp only [snippet, h, quote, maxSnippetRunes]

theorem score_snippet (repo : String) (locale : Locale) (query : String) (page : Page) :
    (page.snippet repo locale (keywords query)).score = Float.ofNat (page.score query) := by
  obtain hzero | hpos := Nat.eq_zero_or_pos (page.score query)
  · rw [snippet_eq_quote repo locale (excerpt_of_zero hzero), hzero, score_quote]
  · obtain ⟨c, _, _, hexcerpt⟩ := excerpt_of_pos hpos
    rw [snippet_eq_quote repo locale hexcerpt, score_quote]

end Page

end Knowledge

end Advisor

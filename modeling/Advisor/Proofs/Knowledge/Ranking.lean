import Advisor.Proofs.Knowledge.Scoring
import Advisor.Proofs.Knowledge.Shelving
import Advisor.Proofs.Knowledge.Timing
import Advisor.Proofs.Text.Trimming
import Mathlib.Data.List.Forall2

/-!
The documentation on a question is the best there is: what the index ranks first, or else the pages that
score highest, each with a chapter that it scores by.
-/

namespace Advisor.Knowledge

open Dialogue

section Order

/-- The best come first, and those of one score in their order. -/
structure Ranking (score : α → Nat) (as ranked : List α) : Prop where
  perm : ranked.Perm as
  best : ranked.Pairwise fun a b => score b ≤ score a
  ties : ∀ n, ranked.filter (score · = n) = as.filter (score · = n)

theorem ranking_mergeSort (score : α → Nat) (as : List α) :
    Ranking score as (as.mergeSort fun a b => (score b : Int) ≤ score a) where
  perm := List.mergeSort_perm ..
  best := (pairwise_mergeSort (fun a => (score a : Int)) as).imp Int.ofNat_le.1
  ties n := by
    have hties := filter_mergeSort (fun a => (score a : Int)) as n
    simpa only [Int.natCast_inj] using hties

theorem orderKey_ofNat_le : ∀ a ≤ 12, ∀ b ≤ 12,
    (Number.orderKey (Float.ofNat a) ≤ Number.orderKey (Float.ofNat b) ↔ (a : Int) ≤ b) := by
  decide +kernel

theorem ofNat_positive : ∀ a ≤ 12, (Float.ofNat a > 0 ↔ 0 < a) := by decide +kernel

end Order

section Pages

variable {repo : String} {locale : Locale} {query : String} {leading : List String} {loaded : List Page}

/-- A snippet quotes a page for a chapter that attains its score. -/
def Quotes (repo : String) (locale : Locale) (query : String) (page : Page) (s : Snippet) : Prop :=
  ∃ c ∈ Chapter.ofMarkdown page.content, (c.matched query).card = page.score query ∧
    s = page.quote repo locale c.heading c.body (page.score query)

/-- The best that pages have to say. -/
inductive BestPages (repo : String) (locale : Locale) (query : String) (leading : List String)
    (loaded : List Page) : Outcome → Prop
  | unavailable (hnone : loaded = []) :
      BestPages repo locale query leading loaded ⟨[], leading ++ ["documentation unavailable"]⟩
  | matching (hpage : page ∈ loaded) (hscore : 0 < page.score query)
      (hranking : Ranking (Page.score query) loaded ranked)
      (hquotes : List.Forall₂ (Quotes repo locale query)
        ((ranked.filter (0 < ·.score query)).take 4) snippets) :
      BestPages repo locale query leading loaded ⟨snippets, leading⟩
  | plain (hsome : loaded ≠ []) (hscore : ∀ page ∈ loaded, page.score query = 0) :
      BestPages repo locale query leading loaded
        ⟨(loaded.take 4).map fun page => page.quote repo locale "" page.content 0, leading⟩

theorem Page.score_snippet_pos (page : Page) :
    (page.snippet repo locale (keywords query)).score > 0 ↔ 0 < page.score query := by
  rw [score_snippet, ofNat_positive _ (page.score_le query)]

theorem any_matches :
    (loaded.map (Page.snippet repo locale (keywords query))).any (·.score > 0) = true ↔
      ∃ page ∈ loaded, 0 < page.score query := by
  simp only [List.any_map, List.any_eq_true, Function.comp_apply, decide_eq_true_eq,
    Page.score_snippet_pos]

theorem rankPages_of_match (h : ∃ page ∈ loaded, 0 < page.score query) :
    rankPages loaded repo locale query =
      (((loaded.mergeSort fun a b => (b.score query : Int) ≤ a.score query).filter
        (0 < ·.score query)).take 4).map (Page.snippet repo locale (keywords query)) := by
  have hsort : (loaded.map (Page.snippet repo locale (keywords query))).mergeSort
      (fun a b => Number.orderKey b.score ≤ Number.orderKey a.score) =
        (loaded.mergeSort fun a b => (b.score query : Int) ≤ a.score query).map
          (Page.snippet repo locale (keywords query)) := by
    refine (List.map_mergeSort fun a _ b _ => ?_).symm
    simp only [Page.score_snippet, orderKey_ofNat_le _ (Page.score_le query b) _ (Page.score_le query a)]
  have hfilter : (fun s : Snippet => decide (s.score > 0)) ∘ Page.snippet repo locale (keywords query) =
      fun page => decide (0 < page.score query) := by
    funext page
    simp only [Function.comp_apply, Page.score_snippet_pos]
  unfold rankPages
  simp only [any_matches.2 h, if_true, hsort, List.filter_map, hfilter, topPages, List.map_take]

theorem rankPages_of_no_match (h : ¬∃ page ∈ loaded, 0 < page.score query) :
    rankPages loaded repo locale query =
      (loaded.take 4).map (Page.snippet repo locale (keywords query)) := by
  unfold rankPages
  simp only [Bool.eq_false_of_not_eq_true (any_matches.not.2 h), topPages, List.map_take]
  rfl

theorem bestPages (repo : String) (locale : Locale) (query : String) (leading : List String)
    (loaded : List Page) :
    BestPages repo locale query leading loaded (.ofPages loaded repo locale query leading) := by
  unfold Outcome.ofPages
  split
  · rename_i hempty
    exact .unavailable (List.isEmpty_iff.1 hempty)
  rename_i hloaded
  by_cases hmatch : ∃ page ∈ loaded, 0 < page.score query
  · obtain ⟨page, hpage, hscore⟩ := hmatch
    rw [rankPages_of_match ⟨page, hpage, hscore⟩]
    refine .matching hpage hscore (ranking_mergeSort _ loaded) ?_
    rw [List.forall₂_map_right_iff, List.forall₂_same]
    intro shown hshown
    have hpos := of_decide_eq_true (List.mem_filter.1 (List.mem_of_mem_take hshown)).2
    obtain ⟨c, hc, hattains, hexcerpt⟩ := Page.excerpt_of_pos hpos
    exact ⟨c, hc, hattains, Page.snippet_eq_quote repo locale hexcerpt⟩
  · rw [rankPages_of_no_match hmatch]
    have hzero : ∀ page ∈ loaded, page.score query = 0 := fun page hpage =>
      Nat.eq_zero_of_not_pos fun hpos => hmatch ⟨page, hpage, hpos⟩
    have hplain : (loaded.take 4).map (Page.snippet repo locale (keywords query)) =
        (loaded.take 4).map fun page => page.quote repo locale "" page.content 0 :=
      List.map_congr_left fun page hpage => Page.snippet_eq_quote repo locale
        (Page.excerpt_of_zero (hzero page (List.mem_of_mem_take hpage)))
    rw [hplain]
    exact .plain (fun hnil => hloaded (List.isEmpty_iff.2 hnil)) hzero

end Pages

/-! Pages that have a text have one that can be read. -/

def Entry.Legible (entry : Entry) : Prop :=
  ∀ text, entry.text? = some text → (Text.trim text).isEmpty = false

end Advisor.Knowledge

namespace Advisor

open Dialogue Knowledge

def Memory.Legible (m : Memory) : Prop := ∀ e ∈ m.pages.entries, e.2.2.Legible

namespace Knowledge

section Legibility

variable {w : World σ} {s t : Scene σ} {m : Memory} {repo : String} {pages : List Underway}
  {kept : List (Nat × Underway)}

theorem legible_ofText (text : String) : (Entry.ofText text).Legible := by
  intro text' h
  unfold Entry.ofText at h
  split at h
  · cases h
  · rename_i htext
    cases h
    exact eq_false_of_ne_true htext

theorem legible_ofFetched (result : Except Failure String) : (Entry.ofFetched result).Legible := by
  cases result with
  | ok text => exact legible_ofText text
  | error e => exact fun _ h => nomatch h

theorem legible_brings (w : World σ) (repo slug : String) (x : σ) : (brings w repo slug x).Legible := by
  unfold brings
  split <;> exact legible_ofFetched _

theorem Obtained.legible {page : Underway} (h : Obtained w repo s t page) (hs : s.memory.Legible) :
    page.entry.Legible := by
  cases h with
  | remembered slug source hx hxt hknown =>
      obtain ⟨expires, hentry⟩ := Memory.mem_of_get? hknown
      exact hs _ hentry
  | fetched slug source hx hxt hunknown => exact legible_brings w repo slug _

theorem legible_shelve (hm : m.Legible) (hkept : ∀ k ∈ kept, k.2.entry.Legible) :
    (shelve repo m kept).Legible := by
  induction kept generalizing m with
  | nil => exact hm
  | cons k rest ih =>
      obtain ⟨hk, hrest⟩ := List.forall_mem_cons.1 hkept
      rw [shelve_cons]
      refine ih (fun e he => ?_) hrest
      obtain rfl | he := Memory.mem_entries_store_page he
      · exact hk
      · exact hm e he

theorem Consulted.legible (h : Consulted w repo s t pages kept) (hs : s.memory.Legible) :
    t.memory.Legible := by
  rw [h.memory]
  refine legible_shelve hs fun k hk => ?_
  have hpage := h.fetched.mem_iff.1 (List.mem_map_of_mem hk)
  exact (h.obtained k.2 (List.mem_of_mem_filter hpage)).legible hs

def loaded (pages : List Underway) : List Page :=
  pagesOf (pages.map fun page => (page.slug, page.source, page.entry.text?))

theorem Consulted.loaded_legible (h : Consulted w repo s t pages kept) (hs : s.memory.Legible) :
    ∀ page ∈ loaded pages, (Text.trim page.content).isEmpty = false := by
  intro page hpage
  obtain ⟨item, hitem, hpage⟩ := List.mem_filterMap.1 hpage
  obtain ⟨origin, horigin, rfl⟩ := List.mem_map.1 hitem
  obtain ⟨text, htext, rfl⟩ := Option.map_eq_some_iff.1 hpage
  exact (h.obtained origin horigin).legible hs text htext

end Legibility

section Retrieval

/-- What an index that has nothing leaves to say. -/
inductive Leading : Option (Except Failure Outcome) → List String → Prop
  | unasked : Leading none []
  | nothing (warnings : List String) : Leading (some (.ok ⟨[], warnings⟩)) warnings
  | failed (e : Failure) :
      Leading (some (.error e)) ["documentation index unavailable: " ++ e.message]

/-- How documentation is had between two scenes, given what the index said: from the index, or else from
the pages. -/
inductive Retrieved (w : World σ) (repo : String) (locale : Locale) (query : String) (s t : Scene σ) :
    Option (Except Failure Outcome) → Outcome → Prop
  | index (hsome : snippets ≠ []) (hasked : t.asked = s.asked) (hmemory : t.memory = s.memory) :
      Retrieved w repo locale query s t (some (.ok ⟨snippets, warnings⟩))
        ⟨(snippets.take 4).map fun s => { s with content := Text.clip s.content 1800 }, warnings⟩
  | pages (hleading : Leading answer leading) (hconsulted : Consulted w repo s t pages kept)
      (hlegible : s.memory.Legible →
        t.memory.Legible ∧ ∀ page ∈ loaded pages, (Text.trim page.content).isEmpty = false)
      (hbest : BestPages repo locale query leading (loaded pages) found) :
      Retrieved w repo locale query s t answer found

variable {w : World σ} {s t u : Scene σ} {hasIndex : Bool} {repo : String} {locale : Locale}
  {query : String} {intent : Intent} {answer : Option (Except Failure Outcome)} {found : Outcome}

theorem leading_indexWarnings (h : Outcome.ofIndex? answer = none) :
    Leading answer (indexWarnings answer) := by
  obtain _ | e | ⟨_ | _, warnings⟩ := answer
  · exact .unasked
  · exact .failed e
  · exact .nothing warnings
  · cases h

theorem ofIndex?_eq_some (h : Outcome.ofIndex? answer = some found) :
    ∃ snippets warnings, snippets ≠ [] ∧ answer = some (.ok ⟨snippets, warnings⟩) ∧
      found = ⟨(snippets.take 4).map fun s => { s with content := Text.clip s.content 1800 },
        warnings⟩ := by
  obtain _ | e | ⟨_ | ⟨first, rest⟩, warnings⟩ := answer
  · cases h
  · cases h
  · cases h
  · exact ⟨first :: rest, warnings, List.cons_ne_nil _ _, rfl, (Option.some.inj h).symm⟩

theorem run_consultPages_retrieved
    (h : (consultPages repo locale query answer).run w s = (some (elapsed, found), t)) :
    Retrieved w repo locale query s t answer found := by
  cases hanswer : Outcome.ofIndex? answer with
  | none =>
      obtain ⟨pages, kept, hconsulted, rfl⟩ := run_consultPages hanswer h
      exact .pages (leading_indexWarnings hanswer) hconsulted
        (fun hs => ⟨hconsulted.legible hs, hconsulted.loaded_legible hs⟩)
        (bestPages repo locale query _ (loaded pages))
  | some indexed =>
      obtain ⟨snippets, warnings, hsome, rfl, hfound⟩ := ofIndex?_eq_some hanswer
      rw [consultPages, hanswer] at h
      obtain ⟨he, rfl⟩ := run_pure h
      cases he
      exact hfound ▸ .index hsome rfl rfl

theorem asks_documentation (hasIndex : Bool) (repo : String) (locale : Locale) (query : String)
    (intent : Intent) : (documentation hasIndex repo locale query intent).Asks fun _ => True := by
  have hindex : (putIndex hasIndex repo locale query intent).Asks fun _ => True := by
    unfold putIndex
    split
    · exact (asks_put trivial).bind fun _ => asks_pure _
    · exact asks_pure _
  refine hindex.bind fun answer => (asks_pause _).bind fun _ => ?_
  exact ((asks_consultPages repo locale query answer.2).mono fun _ _ => trivial).bind fun _ =>
    asks_pure _

theorem run_putIndex {indexed : Lapse × Option (Except Failure Outcome)}
    (h : (putIndex hasIndex repo locale query intent).run w s = (some indexed, t)) :
    t.asked = s.asked ++ (if hasIndex then [.index repo locale query intent 4] else []) ∧
      t.memory = s.memory ∧ indexed.2 =
        if hasIndex then some (w.answer (.index repo locale query intent 4) s.outside).1.result
        else none := by
  unfold putIndex at h
  split at h
  · rename_i hindex
    obtain ⟨arrival, s', hput, h⟩ := run_bind_some h
    obtain ⟨rfl, rfl⟩ := run_pure h
    cases hput
    rw [if_pos hindex, if_pos hindex]
    exact ⟨Scene.asked_act .., rfl, rfl⟩
  · rename_i hindex
    obtain ⟨rfl, rfl⟩ := run_pure h
    rw [if_neg hindex, if_neg hindex]
    exact ⟨(List.append_nil _).symm, rfl, rfl⟩

theorem run_documentation
    (h : (documentation hasIndex repo locale query intent).run w s = (some found, t)) :
    ∃ u, w.Leads s.outside u.outside ∧ u.memory = s.memory ∧
      u.asked = s.asked ++ (if hasIndex then [.index repo locale query intent 4] else []) ∧
      Retrieved w repo locale query u t
        (if hasIndex then some (w.answer (.index repo locale query intent 4) s.outside).1.result
        else none) found := by
  obtain ⟨indexed, s', hindex, h⟩ := run_bind_some h
  obtain ⟨_, u, hpause, h⟩ := run_bind_some h
  obtain ⟨⟨elapsed, found'⟩, t', hconsult, h⟩ := run_bind_some h
  obtain ⟨rfl, rfl⟩ := run_pure h
  obtain ⟨hasked, hmemory, hanswer⟩ := run_putIndex hindex
  have hlead := (leads_of_run hindex).trans (leads_of_run hpause)
  obtain ⟨outside, hpass, rfl⟩ := run_pause hpause
  exact ⟨_, hlead, hmemory, hasked, hanswer ▸ run_consultPages_retrieved hconsult⟩

/-- However the index behaves and whatever the pages hold, documentation is found, and it is the best there
is: what the index puts first, or else the chapters by which the pages score highest. -/
theorem documentation_best (hw : w.Patient) (s : Scene σ) (hasIndex : Bool) (repo : String)
    (locale : Locale) (query : String) (intent : Intent) :
    ∃ found t u, (documentation hasIndex repo locale query intent).run w s = (some found, t) ∧
      w.Leads s.outside u.outside ∧ u.memory = s.memory ∧
      u.asked = s.asked ++ (if hasIndex then [.index repo locale query intent 4] else []) ∧
      Retrieved w repo locale query u t
        (if hasIndex then some (w.answer (.index repo locale query intent 4) s.outside).1.result
        else none) found := by
  obtain ⟨found, t, hrun⟩ :=
    hw.exists_run (asks_documentation hasIndex repo locale query intent) s
  obtain ⟨u, hu⟩ := run_documentation hrun
  exact ⟨found, t, u, hrun, hu⟩

theorem stale_index_leads :
    (paced hasty).Patient ∧ ∃ found t,
      (documentation true "wiki" .en "profit filters" .productHelp).run (paced hasty)
        ⟨(), .empty, []⟩ = (some found, t) ∧ "stale index" ∈ found.warnings := by
  have hpatient := paced_patient hasty
  obtain ⟨found, t, u, hrun, _, _, _, hretrieved⟩ :=
    documentation_best hpatient ⟨(), .empty, []⟩ true "wiki" .en "profit filters" .productHelp
  refine ⟨hpatient, found, t, hrun, ?_⟩
  cases hretrieved with
  | index hsome hasked hmemory => exact absurd rfl hsome
  | pages hleading hconsulted hlegible hbest =>
      cases hleading
      cases hbest <;> simp

def homeOnly (text : String) : World Unit where
  answer
    | .page _ slug, s =>
        (.now (if slug = "Home" then .ok text else .error (.documentation "not found")), s)
    | .completion _, s | .stream _, s | .session, s | .accessToken _, s | .wallet _ _, s |
      .orders _ _, s | .transactions _ _, s | .index _ _ _ _ _, s | .search _ _, s | .overview, s =>
        (.now (.error (.io "unreachable")), s)
  pass _ s := some s
  hear _ s := some (true, s)
  today _ := ⟨0, 0⟩
  instant _ := 0

theorem shown_homeOnly {text : String} (htext : Entry.ofText text = .content text) (repo : String) :
    shown (fun slug => brings (homeOnly text) repo slug ()) = [⟨"Home", .wiki, text⟩] := by
  have hbrings : (fun slug => brings (homeOnly text) repo slug ()) =
      fun slug => if slug = "Home" then .content text else .failed := by
    funext slug
    unfold brings
    split
    · subst slug
      rfl
    · change Entry.ofFetched (if slug = "Home" then .ok text else _) = _
      split
      · exact htext
      · rfl
  rw [hbrings]
  rfl

def letters (n : Nat) : String := .ofList (.replicate n 'a')

theorem ofText_letters {n : Nat} (hn : n ≠ 0) : Entry.ofText (letters n) = .content (letters n) := by
  refine if_neg fun hblank => ?_
  have hletter : 'a' ∈ (Text.trim (letters n)).toList := by
    rw [Text.toList_trim, letters, String.toList_ofList]
    exact Text.mem_strip (List.mem_replicate.2 ⟨hn, rfl⟩) (by decide)
  rw [String.isEmpty_iff.1 hblank] at hletter
  exact absurd hletter List.not_mem_nil

theorem clip_letters {n limit : Nat} (hlimit : 0 < limit) (hn : limit < n) :
    Text.clip (letters n) limit ≠ letters n := by
  intro hsame
  have hcut := Text.runeCount_clip_le (letters n) hlimit
  rw [hsame, Text.runeCount, letters, String.toList_ofList, List.length_replicate] at hcut
  omega

theorem Page.score_of_no_keywords (h : keywords query = []) (page : Page) : page.score query = 0 := by
  simp only [score, Chapter.matched, h, List.toFinset_nil, Finset.filter_empty, Finset.card_empty]
  exact Finset.sup_bot _

theorem run_homeOnly {text : String} (htext : Entry.ofText text = .content text) :
    ∃ t, (documentation false "scan-station/scan-station" .en "hi" .productHelp).run (homeOnly text)
      ⟨(), .empty, []⟩ = (some ⟨[Page.quote "scan-station/scan-station" .en ⟨"Home", .wiki, text⟩ ""
        text 0], []⟩, t) := by
  have hpatient : (homeOnly text).Patient := fun _ x => ⟨x, rfl⟩
  obtain ⟨found, t, hrun⟩ := hpatient.exists_run
    (asks_documentation false "scan-station/scan-station" .en "hi" .productHelp) ⟨(), .empty, []⟩
  obtain ⟨u, _, hmemory, _, hretrieved⟩ := run_documentation hrun
  cases hretrieved with
  | @pages _ leading pages kept _ hleading hconsulted hlegible hbest =>
      have hoffers : Offers (homeOnly text) u t "scan-station/scan-station" fun slug =>
          brings (homeOnly text) "scan-station/scan-station" slug () := by
        intro slug _ x _ _
        rw [hmemory]
        rfl
      have hloaded : loaded pages = [⟨"Home", .wiki, text⟩] :=
        (hconsulted.shown_eq hoffers).trans (shown_homeOnly htext _)
      have hkeywords : keywords "hi" = [] := by decide +kernel
      have hzero := Page.score_of_no_keywords hkeywords
      rw [hloaded] at hbest
      cases hleading
      cases hbest with
      | unavailable hnone => exact absurd hnone (List.cons_ne_nil _ _)
      | matching hpage hscore hranking hquotes => exact absurd (hzero _) (Nat.ne_of_gt hscore)
      | plain hsome hscore => exact ⟨t, hrun⟩

/-- A page that does not match is shown as a whole, but cut as any snippet is. -/
theorem long_page_cut :
    ∃ found t, (documentation false "scan-station/scan-station" .en "hi" .productHelp).run
        (homeOnly (letters 1801)) ⟨(), .empty, []⟩ = (some found, t) ∧
      found.snippets.map (fun s => (s.page, s.score)) = [("Home", 0)] ∧
      found.snippets.map (·.content) ≠ [letters 1801] := by
  obtain ⟨t, hrun⟩ := run_homeOnly (ofText_letters (n := 1801) (by decide))
  refine ⟨_, t, hrun, rfl, fun hwhole => ?_⟩
  simp only [List.map_cons, List.map_nil, Page.content_quote, List.cons.injEq, and_true] at hwhole
  exact clip_letters (by decide) (by decide) hwhole

end Retrieval

end Knowledge

end Advisor

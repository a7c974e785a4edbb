import Advisor.Knowledge.Retrieval
import Advisor.Proofs.Consultation.Inquiries
import Advisor.Proofs.Dialogue.Lockstep
import Advisor.Proofs.Dialogue.Succession

/-!
How the pages of a repository are consulted: all of them are come by at the same time, from memory or
from their source, and what has been fetched is kept as it arrives.
-/

namespace Advisor

open Dialogue

/-- Nobody leaves while time passes. -/
def World.Patient (w : World σ) : Prop := ∀ lapse x, ∃ y, w.pass lapse x = some y

theorem World.Patient.exists_run {w : World σ} (hw : w.Patient) {kind : Question → Prop}
    {d : Dialogue α} (hd : d.Asks kind) (s : Scene σ) : ∃ a t, d.run w s = (some a, t) := by
  induction hd generalizing s with
  | done a => exact ⟨a, s, rfl⟩
  | @ask q next hq hn ih =>
      exact ih (w.answer q s.outside).1
        { s.act (.asked q (w.answer q s.outside).1) with outside := (w.answer q s.outside).2 }
  | @wait next lapse hn ih =>
      obtain ⟨outside, hpass⟩ := hw lapse s.outside
      simp only [run, hpass]
      exact ih { s with outside }
  | @read slot next hn ih => exact ih (s.memory.get? (w.instant s.outside) slot) s
  | @store next slot value hn ih =>
      exact ih { s with memory := s.memory.store (w.instant s.outside) slot value }
  | now hn ih => exact ih (w.today s.outside) s

namespace Knowledge

def allPages : List String := wikiPages ++ [overviewPage]

def sourceOf (slug : String) : Source := if slug = overviewPage then .readme else .wiki

def pageQuestion (repo slug : String) : Question :=
  if slug = overviewPage then .overview else .page repo slug

/-- What would be remembered of a page that is fetched from a world in a state. -/
def brings (w : World σ) (repo slug : String) (x : σ) : Entry :=
  if slug = overviewPage then .ofFetched (overviewText (w.answer .overview x).1.result)
  else .ofFetched (w.answer (.page repo slug) x).1.result

/-- The questions that pages took. -/
def questionsFor (repo : String) (pages : List Underway) : List Question :=
  (pages.filter (·.fetched)).map fun page => pageQuestion repo page.slug

theorem questionsFor_append (repo : String) (pages pages' : List Underway) :
    questionsFor repo (pages ++ pages') = questionsFor repo pages ++ questionsFor repo pages' := by
  simp [questionsFor]

variable {w : World σ} {s t u : Scene σ} {repo : String} {locale : Locale}

/-- How a page was come by: it was remembered, or it was fetched. -/
inductive Obtained (w : World σ) (repo : String) (s t : Scene σ) : Underway → Prop
  | remembered (slug : String) (source : Source) (hx : w.Leads s.outside x)
      (hxt : w.Leads x t.outside)
      (hknown : s.memory.get? (w.instant x) (.page (pageKey repo slug)) = some entry) :
      Obtained w repo s t ⟨slug, source, false, entry⟩
  | fetched (slug : String) (source : Source) (hx : w.Leads s.outside x)
      (hxt : w.Leads x t.outside)
      (hunknown : s.memory.get? (w.instant x) (.page (pageKey repo slug)) = none) :
      Obtained w repo s t ⟨slug, source, true, brings w repo slug x⟩

theorem Obtained.mono {s' t' : Scene σ} {page : Underway} (h : Obtained w repo s t page)
    (hs : w.Leads s'.outside s.outside) (hm : s.memory = s'.memory)
    (ht : w.Leads t.outside t'.outside) : Obtained w repo s' t' page := by
  cases h with
  | remembered slug source hx hxt hknown =>
      exact .remembered slug source (hs.trans hx) (hxt.trans ht) (hm ▸ hknown)
  | fetched slug source hx hxt hunknown =>
      exact .fetched slug source (hs.trans hx) (hxt.trans ht) (hm ▸ hunknown)

/-- Pages that are on their way, each from where it is to be had. -/
structure Gathered (w : World σ) (repo : String) (slugs : List String) (s t : Scene σ)
    (pages : List Underway) : Prop where
  slugs : pages.map (fun page => (page.slug, page.source)) = slugs.map fun slug => (slug, sourceOf slug)
  obtained : ∀ page ∈ pages, Obtained w repo s t page
  asked : t.asked = s.asked ++ questionsFor repo pages
  memory : t.memory = s.memory

theorem Gathered.nil (w : World σ) (repo : String) (s : Scene σ) : Gathered w repo [] s s [] :=
  ⟨rfl, by simp, by simp [questionsFor], rfl⟩

theorem Gathered.append {slugs slugs' : List String} {pages pages' : List Underway}
    (h : Gathered w repo slugs s t pages) (h' : Gathered w repo slugs' t u pages')
    (hs : w.Leads s.outside t.outside) (ht : w.Leads t.outside u.outside) :
    Gathered w repo (slugs ++ slugs') s u (pages ++ pages') where
  slugs := by rw [List.map_append, List.map_append, h.slugs, h'.slugs]
  obtained page hpage := by
    rcases List.mem_append.1 hpage with hpage | hpage
    · exact (h.obtained page hpage).mono .refl rfl ht
    · exact (h'.obtained page hpage).mono hs h.memory .refl
  asked := by rw [h'.asked, h.asked, questionsFor_append, List.append_assoc]
  memory := h'.memory.trans h.memory

/-- What is fetched is what the world brings for a page, at the cost of its question. -/
def Fetches (w : World σ) (repo slug : String) (fetch : Dialogue (Arrival String)) : Prop :=
  ∀ s, ∃ arrival t, fetch.run w s = (some arrival, t) ∧
    .ofFetched arrival.result = brings w repo slug s.outside ∧
    t.asked = s.asked ++ [pageQuestion repo slug] ∧ t.memory = s.memory

theorem fetches_page (w : World σ) (repo : String) {slug : String} (h : slug ≠ overviewPage) :
    Fetches w repo slug (put (.page repo slug)) := by
  intro s
  refine ⟨_, _, rfl, ?_, ?_, rfl⟩
  · rw [brings, if_neg h]
  · rw [Scene.asked_act, pageQuestion, if_neg h]
    rfl

theorem fetches_overview (w : World σ) (repo : String) :
    Fetches w repo overviewPage fetchOverview := by
  intro s
  refine ⟨_, _, rfl, ?_, ?_, rfl⟩
  · rw [brings, if_pos rfl]
  · rw [Scene.asked_act, pageQuestion, if_pos rfl]
    rfl

theorem run_underway {slug : String} {fetch : Dialogue (Arrival String)}
    (hfetch : Fetches w repo slug fetch) {item : Lapse × Underway}
    (h : (underway repo slug (sourceOf slug) fetch).run w s = (some item, t)) :
    Gathered w repo [slug] s t [item.2] := by
  obtain ⟨remembered, s', hread, hrest⟩ := run_bind_some h
  obtain ⟨hremembered, rfl⟩ := run_remembered hread
  cases remembered with
  | some entry =>
      obtain ⟨rfl, rfl⟩ := run_pure hrest
      refine ⟨rfl, ?_, by simp [questionsFor], rfl⟩
      simpa using .remembered slug (sourceOf slug) .refl .refl hremembered.symm
  | none =>
      obtain ⟨arrival, t', hrun, hbrings, hasked, hmemory⟩ := hfetch s'
      obtain ⟨arrival', t'', hrun', hrest⟩ := run_bind_some hrest
      rw [hrun] at hrun'
      cases hrun'
      obtain ⟨rfl, rfl⟩ := run_pure hrest
      refine ⟨rfl, ?_, by simpa [questionsFor] using hasked, hmemory⟩
      simp only [List.mem_singleton, forall_eq, hbrings]
      exact .fetched slug (sourceOf slug) .refl (leads_of_run hrun) hremembered.symm

theorem run_underways {slugs : List String} (hslugs : overviewPage ∉ slugs)
    {items : List (Lapse × Underway)}
    (h : (slugs.mapM fun slug => underway repo slug .wiki (put (.page repo slug))).run w s =
      (some items, t)) :
    Gathered w repo slugs s t (items.map (·.2)) := by
  induction slugs generalizing s items with
  | nil =>
      obtain ⟨rfl, rfl⟩ := run_pure h
      exact .nil w repo s
  | cons slug rest ih =>
      rw [List.mem_cons, not_or] at hslugs
      obtain ⟨hslug, hrest⟩ := hslugs
      rw [List.mapM_cons] at h
      obtain ⟨item, s', hfirst, h⟩ := run_bind_some h
      obtain ⟨others, t', hothers, h⟩ := run_bind_some h
      obtain ⟨rfl, rfl⟩ := run_pure h
      have hsource : sourceOf slug = .wiki := if_neg (Ne.symm hslug)
      rw [← hsource] at hfirst
      exact (run_underway (fetches_page w repo (Ne.symm hslug)) hfirst).append (ih hrest hothers)
        (leads_of_run hfirst) (leads_of_run hothers)

theorem run_allUnderway {items : List (Lapse × Underway)}
    (h : (allUnderway repo).run w s = (some items, t)) :
    Gathered w repo allPages s t (items.map (·.2)) := by
  obtain ⟨wiki, s', hwiki, h⟩ := run_bind_some h
  obtain ⟨overview, t', hoverview, h⟩ := run_bind_some h
  obtain ⟨rfl, rfl⟩ := run_pure h
  rw [List.map_append]
  exact (run_underways (by decide) hwiki).append
    (run_underway (fetches_overview w repo) hoverview)
    (leads_of_run hwiki) (leads_of_run hoverview)

def shelve (repo : String) (m : Memory) (kept : List (Nat × Underway)) : Memory :=
  kept.foldl (fun m k => m.store k.1 (.page (pageKey repo k.2.slug)) k.2.entry) m

theorem shelve_cons (repo : String) (m : Memory) (k : Nat × Underway) (rest : List (Nat × Underway)) :
    shelve repo m (k :: rest) =
      shelve repo (m.store k.1 (.page (pageKey repo k.2.slug)) k.2.entry) rest := rfl

/-- The instants lie between two states of a world. -/
def During (w : World σ) (x y : σ) (kept : List (Nat × Underway)) : Prop :=
  ∀ k ∈ kept, ∃ z, w.Leads x z ∧ w.Leads z y ∧ k.1 = w.instant z

theorem run_rememberPages {items : List (Lapse × Underway)}
    (h : (takeEach (fun _ page => rememberPage repo page) elapsed () items).run w s =
      (some r, t)) :
    ∃ kept, kept.map (·.2) = (items.map (·.2)).filter (·.fetched) ∧
      During w s.outside t.outside kept ∧ t.acts = s.acts ∧ t.memory = shelve repo s.memory kept := by
  induction items generalizing elapsed s with
  | nil =>
      obtain ⟨_, rfl⟩ := run_pure h
      exact ⟨[], rfl, by simp [During], rfl, rfl⟩
  | cons item rest ih =>
      obtain ⟨lapse, page⟩ := item
      obtain ⟨outside, _, s', hpass, htake, hrest⟩ := run_takeEach_cons h
      have hs : w.Leads s.outside outside := .single (.pass hpass)
      cases hfetched : page.fetched with
      | false =>
          rw [rememberPage, if_neg (by simp [hfetched])] at htake
          obtain ⟨_, rfl⟩ := run_pure htake
          obtain ⟨kept, hkept, hduring, hacts, hmemory⟩ := ih hrest
          refine ⟨kept, by simpa [hfetched] using hkept, fun k hk => ?_, hacts, hmemory⟩
          obtain ⟨z, hz, hzt, hinstant⟩ := hduring k hk
          exact ⟨z, hs.trans hz, hzt, hinstant⟩
      | true =>
          rw [rememberPage, if_pos hfetched] at htake
          cases htake
          obtain ⟨kept, hkept, hduring, hacts, hmemory⟩ := ih hrest
          refine ⟨(w.instant outside, page) :: kept, by simpa [hfetched] using hkept, ?_, hacts,
            hmemory⟩
          rintro k (_ | ⟨_, hk⟩)
          · exact ⟨outside, hs, leads_of_run hrest, rfl⟩
          · obtain ⟨z, hz, hzt, hinstant⟩ := hduring k hk
            exact ⟨z, hs.trans hz, hzt, hinstant⟩

/-- The pages have been consulted: they were come by, and what was fetched is kept, in the order in
which it arrived. -/
structure Consulted (w : World σ) (repo : String) (s t : Scene σ) (pages : List Underway)
    (kept : List (Nat × Underway)) : Prop where
  slugs : pages.map (fun page => (page.slug, page.source)) =
    allPages.map fun slug => (slug, sourceOf slug)
  obtained : ∀ page ∈ pages, Obtained w repo s t page
  asked : t.asked = s.asked ++ questionsFor repo pages
  fetched : (kept.map (·.2)).Perm (pages.filter (·.fetched))
  during : During w s.outside t.outside kept
  memory : t.memory = shelve repo s.memory kept

theorem run_consultPages {query : String} {answer : Option (Except Failure Outcome)}
    (hanswer : Outcome.ofIndex? answer = none)
    (h : (consultPages repo locale query answer).run w s = (some (elapsed, found), t)) :
    ∃ pages kept, Consulted w repo s t pages kept ∧
      found = .ofPages (pagesOf (pages.map fun page => (page.slug, page.source, page.entry.text?)))
        repo locale query (indexWarnings answer) := by
  rw [consultPages, hanswer] at h
  obtain ⟨items, s', hitems, h⟩ := run_bind_some h
  obtain ⟨elapsed', t', hsettle, h⟩ := run_bind_some h
  obtain ⟨he, rfl⟩ := run_pure h
  cases he
  obtain ⟨r, t'', htake, h⟩ := run_bind_some hsettle
  obtain ⟨_, rfl⟩ := run_pure h
  have hgathered := run_allUnderway hitems
  obtain ⟨kept, hkept, hduring, hacts, hmemory⟩ := run_rememberPages htake
  have hitemsLead := leads_of_run hitems
  refine ⟨items.map (·.2), kept, ⟨hgathered.slugs, fun page hpage => ?_, ?_, ?_, ?_, ?_⟩, ?_⟩
  · exact (hgathered.obtained page hpage).mono .refl rfl (leads_of_run htake)
  · rw [Scene.asked, hacts]
    exact hgathered.asked
  · rw [hkept]
    exact ((List.mergeSort_perm _ _).map _).filter _
  · intro k hk
    obtain ⟨z, hz, hzt, hinstant⟩ := hduring k hk
    exact ⟨z, hitemsLead.trans hz, hzt, hinstant⟩
  · rw [hmemory, hgathered.memory]
  · rw [readPages, List.map_map]
    rfl

/-- What is had of the pages, as it is shown. -/
def shown (pages : String → Entry) : List Page :=
  pagesOf (allPages.map fun slug => (slug, sourceOf slug, (pages slug).text?))

/-- Between two scenes, whatever is had of a page, from memory or else from its source, is as given. -/
def Offers (w : World σ) (s t : Scene σ) (repo : String) (pages : String → Entry) : Prop :=
  ∀ slug ∈ allPages, ∀ x, w.Leads s.outside x → w.Leads x t.outside →
    (s.memory.get? (w.instant x) (.page (pageKey repo slug))).getD (brings w repo slug x) = pages slug

theorem Obtained.entry_eq {pages : String → Entry} (hoffers : Offers w s t repo pages)
    {page : Underway} (h : Obtained w repo s t page) (hslug : page.slug ∈ allPages) :
    page.entry = pages page.slug := by
  cases h with
  | remembered slug source hx hxt hknown => simpa [hknown] using hoffers slug hslug _ hx hxt
  | fetched slug source hx hxt hunknown => simpa [hunknown] using hoffers slug hslug _ hx hxt

theorem Consulted.slug_mem {pages : List Underway} (h : Consulted w repo s t pages kept)
    {page : Underway} (hpage : page ∈ pages) : page.slug ∈ allPages := by
  have hmem := List.mem_map_of_mem (f := fun page : Underway => (page.slug, page.source)) hpage
  rw [h.slugs] at hmem
  obtain ⟨slug, hslug, he⟩ := List.mem_map.1 hmem
  exact (Prod.mk.inj he).1 ▸ hslug

theorem Consulted.shown_eq {pages : List Underway} (h : Consulted w repo s t pages kept)
    {entries : String → Entry} (hoffers : Offers w s t repo entries) :
    pagesOf (pages.map fun page => (page.slug, page.source, page.entry.text?)) = shown entries := by
  have hentries : pages.map (fun page => (page.slug, page.source, page.entry.text?)) =
      (pages.map fun page => (page.slug, page.source)).map
        fun p => (p.1, p.2, (entries p.1).text?) := by
    rw [List.map_map]
    refine List.map_congr_left fun page hpage => ?_
    rw [(h.obtained page hpage).entry_eq hoffers (h.slug_mem hpage)]
    rfl
  rw [hentries, h.slugs, List.map_map]
  rfl

end Knowledge

end Advisor

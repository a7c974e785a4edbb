import Advisor.Proofs.Knowledge.Consulting
import Mathlib.Data.List.Perm.Basic

/-!
That pages are remembered does not show. Whatever was looked up before, an inquiry finds what it would
find without a memory, and no page is fetched again while it is kept.
-/

namespace Advisor

open Dialogue

namespace Knowledge

def repoName (repo : String) : String := Text.lower (Text.trim repo)

theorem eq_of_append_cons_eq {c : Char} {before before' after after' : List Char}
    (h : before ++ c :: after = before' ++ c :: after') (hafter : c ∉ after)
    (hafter' : c ∉ after') : before = before' ∧ after = after' := by
  have hlast {before after : List Char} (hafter : c ∉ after) :
      (before ++ c :: after).reverse.takeWhile (· ≠ c) = after.reverse := by
    have hother : ∀ a ∈ after.reverse, decide (a ≠ c) = true := by
      intro a ha
      rw [decide_eq_true_iff]
      rintro rfl
      exact hafter (List.mem_reverse.1 ha)
    rw [List.reverse_append, List.reverse_cons, List.append_assoc,
      List.takeWhile_append_of_pos hother]
    simp
  have hrest := congrArg (fun l : List Char => l.reverse.takeWhile (· ≠ c)) h
  simp only [hlast hafter, hlast hafter'] at hrest
  obtain rfl := List.reverse_injective hrest
  exact ⟨List.append_cancel_right h, rfl⟩

theorem page_plain : ∀ page ∈ allPages, Text.trim page = page ∧ ':' ∉ page.toList := by decide +kernel

theorem toList_pageKey (repo : String) {page : String} (hpage : page ∈ allPages) :
    (pageKey repo page).toList = ((repoName repo).toList ++ [':']) ++ ':' :: page.toList := by
  rw [pageKey, (page_plain page hpage).1, repoName]
  simp

theorem pageKey_inj {repo repo' page page' : String} (hpage : page ∈ allPages)
    (hpage' : page' ∈ allPages) :
    pageKey repo page = pageKey repo' page' ↔ repoName repo = repoName repo' ∧ page = page' := by
  constructor
  · intro h
    have hlists := congrArg String.toList h
    rw [toList_pageKey repo hpage, toList_pageKey repo' hpage'] at hlists
    obtain ⟨hname, hsame⟩ :=
      eq_of_append_cons_eq hlists (page_plain page hpage).2 (page_plain page' hpage').2
    exact ⟨String.toList_inj.1 (List.append_cancel_right hname), String.toList_inj.1 hsame⟩
  · rintro ⟨hname, rfl⟩
    exact congrArg (· ++ "::" ++ Text.trim page) hname

theorem pageQuestion_inj {repo slug slug' : String}
    (h : pageQuestion repo slug = pageQuestion repo slug') : slug = slug' := by
  unfold pageQuestion at h
  split at h <;> split at h <;> simp_all

/-- A source that has for a page of a repository what is given, in whatever case and spacing the
repository is named. That it has none is a way to have a page. -/
def Publishes (w : World σ) (published : String → String → Entry) : Prop :=
  ∀ repo, ∀ slug ∈ allPages, ∀ x, brings w repo slug x = published (repoName repo) slug

end Knowledge

namespace Memory

open Knowledge

variable {m : Memory} {deadline now : Nat} {key key' : String} {entry entry' : Entry}

/-- A page is remembered, and will be until after the deadline. -/
def Keeps (m : Memory) (deadline : Nat) (key : String) (entry : Entry) : Prop :=
  ∃ expires, m.pages.entries.lookup key = some (expires, entry) ∧ deadline < expires

theorem entries_store_page (m : Memory) (now : Nat) (key : String) (entry : Entry) :
    (m.store now (.page key) entry).pages.entries = (key, now + entry.lifetime, entry) ::
      m.pages.entries.filter fun (k, expires, _) => k ≠ key ∧ now < expires := rfl

theorem Keeps.get? (h : m.Keeps deadline key entry) (hnow : now ≤ deadline) :
    m.get? now (.page key) = some entry := by
  obtain ⟨expires, hlookup, hexpires⟩ := h
  simp only [Memory.get?, Cache.get?, hlookup]
  exact if_pos (Nat.lt_of_le_of_lt hnow hexpires)

theorem get?_of_lookup_eq_none (h : m.pages.entries.lookup key = none) (now : Nat) :
    m.get? now (.page key) = none := by
  simp only [Memory.get?, Cache.get?, h]

theorem mem_of_get? (h : m.get? now (.page key) = some entry) :
    ∃ expires, (key, expires, entry) ∈ m.pages.entries := by
  simp only [Memory.get?, Cache.get?] at h
  split at h
  case h_1 expires value hlookup =>
      obtain ⟨_, _, hentries, _⟩ := List.lookup_eq_some_iff.1 hlookup
      split at h
      · cases h
        exact ⟨expires, by simp [hentries]⟩
      · cases h
  case h_2 => cases h

theorem mem_entries_store_page {e : String × Nat × Entry}
    (h : e ∈ (m.store now (.page key) entry).pages.entries) :
    e = (key, now + entry.lifetime, entry) ∨ e ∈ m.pages.entries := by
  rw [entries_store_page, List.mem_cons] at h
  exact h.imp_right List.mem_of_mem_filter

theorem keeps_store (m : Memory) (h : deadline < now + entry.lifetime) :
    (m.store now (.page key) entry).Keeps deadline key entry :=
  ⟨now + entry.lifetime, by rw [entries_store_page, List.lookup_cons_self], h⟩

theorem Keeps.store (h : m.Keeps deadline key entry) (hnow : now ≤ deadline) (hkey : key ≠ key')
    (entry' : Entry) : (m.store now (.page key') entry').Keeps deadline key entry := by
  obtain ⟨expires, hlookup, hexpires⟩ := h
  obtain ⟨before, after, hentries, hbefore⟩ := List.lookup_eq_some_iff.1 hlookup
  refine ⟨expires, ?_, hexpires⟩
  have hfresh : now < expires := Nat.lt_of_le_of_lt hnow hexpires
  rw [entries_store_page, List.lookup_cons, beq_false_of_ne hkey, hentries, List.filter_append,
    List.filter_cons_of_pos (by simpa using ⟨hkey, hfresh⟩)]
  exact List.lookup_eq_some_iff.2
    ⟨_, _, rfl, fun p hp => hbefore p (List.mem_of_mem_filter hp)⟩

theorem lookup_store_eq_none (h : m.pages.entries.lookup key = none) (hkey : key ≠ key')
    (now : Nat) (entry' : Entry) :
    (m.store now (.page key') entry').pages.entries.lookup key = none := by
  rw [entries_store_page, List.lookup_cons, beq_false_of_ne hkey]
  exact List.lookup_eq_none_iff.2 fun p hp =>
    List.lookup_eq_none_iff.1 h p (List.mem_of_mem_filter hp)

end Memory

namespace Knowledge

variable {w : World σ} {s t : Scene σ} {repo : String} {m : Memory} {deadline since : Nat}
  {known : List String} {published : String → String → Entry} {kept : List (Nat × Underway)}
  {pages : List Underway}

/-- What is remembered is what the source has. The pages of the repositories that have been inquired of
are all remembered, as far as an entry of `since` outlasts the deadline, and no others are. -/
structure Shelved (published : String → String → Entry) (since deadline : Nat)
    (known : List String) (m : Memory) : Prop where
  faithful : ∀ e ∈ m.pages.entries, ∃ repo, ∃ slug ∈ allPages,
    e.1 = pageKey repo slug ∧ e.2.2 = published (repoName repo) slug
  keeps : ∀ repo, repoName repo ∈ known → ∀ slug ∈ allPages,
    deadline < since + (published (repoName repo) slug).lifetime →
      m.Keeps deadline (pageKey repo slug) (published (repoName repo) slug)
  unknown : ∀ repo, repoName repo ∉ known → ∀ slug ∈ allPages,
    m.pages.entries.lookup (pageKey repo slug) = none

theorem shelved_nothing (published : String → String → Entry) (since deadline : Nat)
    (hm : m.pages = .empty) : Shelved published since deadline [] m := by
  constructor <;> simp [hm, Cache.empty]

theorem Shelved.offers (hpublishes : Publishes w published)
    (hs : Shelved published since deadline known s.memory) (repo : String) :
    Offers w s t repo (published (repoName repo)) := by
  intro slug hslug x _ _
  cases hget : s.memory.get? (w.instant x) (.page (pageKey repo slug)) with
  | none => exact hpublishes repo slug hslug x
  | some entry =>
      obtain ⟨expires, hmem⟩ := Memory.mem_of_get? hget
      obtain ⟨repo', slug', hslug', hkey, hentry⟩ := hs.faithful _ hmem
      obtain ⟨hname, rfl⟩ := (pageKey_inj hslug hslug').1 hkey
      rw [Option.getD_some, hname]
      exact hentry

/-- A page of a repository that is kept as its source has it, in time. -/
structure Filed (published : String → String → Entry) (repo : String) (since deadline : Nat)
    (k : Nat × Underway) : Prop where
  slug : k.2.slug ∈ allPages
  entry : k.2.entry = published (repoName repo) k.2.slug
  since : since ≤ k.1
  deadline : k.1 ≤ deadline

theorem Consulted.filed (hw : w.Onward) (h : Consulted w repo s t pages kept)
    (hoffers : Offers w s t repo (published (repoName repo))) (hsince : since ≤ w.instant s.outside)
    (hdeadline : w.instant t.outside ≤ deadline) :
    ∀ k ∈ kept, Filed published repo since deadline k := by
  intro k hk
  have hpage : k.2 ∈ pages :=
    List.mem_of_mem_filter (h.fetched.mem_iff.1 (List.mem_map_of_mem hk))
  obtain ⟨z, hz, hzt, hinstant⟩ := h.during k hk
  refine ⟨h.slug_mem hpage, (h.obtained _ hpage).entry_eq hoffers (h.slug_mem hpage), ?_, ?_⟩
  · exact hinstant ▸ Nat.le_trans hsince (hw.leads hz)
  · exact hinstant ▸ Nat.le_trans (hw.leads hzt) hdeadline

theorem faithful_shelve (hfiled : ∀ k ∈ kept, Filed published repo since deadline k)
    (hm : ∀ e ∈ m.pages.entries, ∃ repo, ∃ slug ∈ allPages,
      e.1 = pageKey repo slug ∧ e.2.2 = published (repoName repo) slug) :
    ∀ e ∈ (shelve repo m kept).pages.entries, ∃ repo, ∃ slug ∈ allPages,
      e.1 = pageKey repo slug ∧ e.2.2 = published (repoName repo) slug := by
  induction kept generalizing m with
  | nil => exact hm
  | cons k rest ih =>
      obtain ⟨hk, hrest⟩ := List.forall_mem_cons.1 hfiled
      refine ih hrest fun e he => ?_
      rcases Memory.mem_entries_store_page he with he | he
      · exact ⟨repo, k.2.slug, hk.slug, congrArg (·.1) he, (congrArg (·.2.2) he).trans hk.entry⟩
      · exact hm e he

theorem unknown_shelve (hfiled : ∀ k ∈ kept, Filed published repo since deadline k) {other : String}
    (hother : repoName other ≠ repoName repo) {slug : String} (hslug : slug ∈ allPages)
    (hm : m.pages.entries.lookup (pageKey other slug) = none) :
    (shelve repo m kept).pages.entries.lookup (pageKey other slug) = none := by
  induction kept generalizing m with
  | nil => exact hm
  | cons k rest ih =>
      obtain ⟨hk, hrest⟩ := List.forall_mem_cons.1 hfiled
      refine ih hrest (Memory.lookup_store_eq_none hm (fun hkey => hother ?_) _ _)
      exact ((pageKey_inj hslug hk.slug).1 hkey).1

theorem keeps_shelve (hfiled : ∀ k ∈ kept, Filed published repo since deadline k) {other slug : String}
    (hslug : slug ∈ allPages)
    (hlasting : deadline < since + (published (repoName other) slug).lifetime)
    (hm : m.Keeps deadline (pageKey other slug) (published (repoName other) slug) ∨
      ∃ k ∈ kept, pageKey repo k.2.slug = pageKey other slug) :
    (shelve repo m kept).Keeps deadline (pageKey other slug) (published (repoName other) slug) := by
  induction kept generalizing m with
  | nil =>
      obtain hm | ⟨k, hk, _⟩ := hm
      · exact hm
      · cases hk
  | cons k rest ih =>
      obtain ⟨hk, hrest⟩ := List.forall_mem_cons.1 hfiled
      rw [shelve_cons]
      by_cases hkey : pageKey repo k.2.slug = pageKey other slug
      · obtain ⟨hname, hsame⟩ := (pageKey_inj hk.slug hslug).1 hkey
        have hentry : k.2.entry = published (repoName other) slug := by
          rw [hk.entry, hname, hsame]
        refine ih hrest (.inl ?_)
        rw [hkey, hentry]
        exact Memory.keeps_store m (Nat.lt_of_lt_of_le hlasting (Nat.add_le_add_right hk.since _))
      · refine ih hrest (hm.imp (fun hkeeps => hkeeps.store hk.deadline (Ne.symm hkey) _) ?_)
        rintro ⟨k', hk', hkey'⟩
        rcases List.mem_cons.1 hk' with rfl | hk'
        · exact absurd hkey' hkey
        · exact ⟨k', hk', hkey'⟩

theorem Consulted.exists_page (h : Consulted w repo s t pages kept) {slug : String}
    (hslug : slug ∈ allPages) : ∃ page ∈ pages, page.slug = slug := by
  have hmem := List.mem_map_of_mem (f := fun slug => (slug, sourceOf slug)) hslug
  rw [← h.slugs] at hmem
  obtain ⟨page, hpage, he⟩ := List.mem_map.1 hmem
  exact ⟨page, hpage, (Prod.mk.inj he).1⟩

theorem Obtained.fetched_of_unknown {page : Underway} (h : Obtained w repo s t page)
    (hunknown : s.memory.pages.entries.lookup (pageKey repo page.slug) = none) :
    page.fetched = true := by
  cases h with
  | remembered slug source hx hxt hknown =>
      rw [Memory.get?_of_lookup_eq_none hunknown] at hknown
      cases hknown
  | fetched slug source hx hxt hunknown => rfl

theorem Obtained.remembered_of_keeps (hw : w.Onward) {page : Underway}
    (h : Obtained w repo s t page) (hdeadline : w.instant t.outside ≤ deadline) {entry : Entry}
    (hkeeps : s.memory.Keeps deadline (pageKey repo page.slug) entry) : page.fetched = false := by
  cases h with
  | remembered slug source hx hxt hknown => rfl
  | fetched slug source hx hxt hunknown =>
      rw [hkeeps.get? (Nat.le_trans (hw.leads hxt) hdeadline)] at hunknown
      cases hunknown

theorem Consulted.shelved (hw : w.Onward) (hpublishes : Publishes w published)
    (h : Consulted w repo s t pages kept) (hs : Shelved published since deadline known s.memory)
    (hsince : since ≤ w.instant s.outside) (hdeadline : w.instant t.outside ≤ deadline) :
    Shelved published since deadline (repoName repo :: known) t.memory := by
  have hfiled := h.filed hw (hs.offers hpublishes repo) hsince hdeadline
  rw [h.memory]
  refine ⟨faithful_shelve hfiled hs.faithful, ?_, ?_⟩
  · intro other hother slug hslug hlasting
    refine keeps_shelve hfiled hslug hlasting ?_
    by_cases hknown : repoName other ∈ known
    · exact .inl (hs.keeps other hknown slug hslug hlasting)
    · have hname : repoName other = repoName repo := by simpa [hknown] using hother
      obtain ⟨page, hpage, rfl⟩ := h.exists_page hslug
      have hkey : pageKey repo page.slug = pageKey other page.slug :=
        (pageKey_inj hslug hslug).2 ⟨hname.symm, rfl⟩
      have hunknown := hs.unknown other hknown page.slug hslug
      rw [← hkey] at hunknown
      have hfetched := (h.obtained page hpage).fetched_of_unknown hunknown
      obtain ⟨k, hk, rfl⟩ := List.mem_map.1
        (h.fetched.mem_iff.2 (List.mem_filter.2 ⟨hpage, hfetched⟩))
      exact .inr ⟨k, hk, hkey⟩
  · intro other hother slug hslug
    rw [List.mem_cons, not_or] at hother
    obtain ⟨hname, hknown⟩ := hother
    exact unknown_shelve hfiled hname hslug (hs.unknown other hknown slug hslug)

theorem Consulted.questions_sublist (h : Consulted w repo s t pages kept) :
    (questionsFor repo pages).Sublist (allPages.map (pageQuestion repo)) := by
  have hslugs : pages.map (·.slug) = allPages := by
    have hfirst := congrArg (List.map Prod.fst) h.slugs
    rw [List.map_map, List.map_map] at hfirst
    exact hfirst.trans (List.map_id allPages)
  rw [← hslugs, List.map_map]
  exact List.filter_sublist.map _

theorem Consulted.asks_iff (hw : w.Onward) (h : Consulted w repo s t pages kept)
    (hs : Shelved published since deadline known s.memory)
    (hdeadline : w.instant t.outside ≤ deadline) {slug : String} (hslug : slug ∈ allPages)
    (hlasting : deadline < since + (published (repoName repo) slug).lifetime) :
    pageQuestion repo slug ∈ questionsFor repo pages ↔ repoName repo ∉ known := by
  constructor
  · intro hasked hknown
    obtain ⟨page, hpage, hsame⟩ := List.mem_map.1 hasked
    obtain ⟨hpage, hfetched⟩ := List.mem_filter.1 hpage
    obtain rfl := pageQuestion_inj hsame
    have hkeeps := hs.keeps repo hknown page.slug hslug hlasting
    rw [(h.obtained page hpage).remembered_of_keeps hw hdeadline hkeeps] at hfetched
    cases hfetched
  · intro hunknown
    obtain ⟨page, hpage, rfl⟩ := h.exists_page hslug
    have hfetched := (h.obtained page hpage).fetched_of_unknown
      (hs.unknown repo hunknown page.slug hslug)
    exact List.mem_map.2 ⟨page, List.mem_filter.2 ⟨hpage, hfetched⟩, rfl⟩

/-- What is asked of the documentation of a repository. -/
structure Inquiry where
  repo : String
  locale : Locale
  query : String
  intent : Intent

def Inquiry.look (q : Inquiry) : Dialogue Outcome :=
  documentation false q.repo q.locale q.query q.intent

def Inquiry.found (published : String → String → Entry) (q : Inquiry) : Outcome :=
  .ofPages (shown (published (repoName q.repo))) q.repo q.locale q.query []

theorem Inquiry.asks_look (q : Inquiry) : q.look.Asks IsText := by
  refine Asks.bind (asks_pure _) fun answer => Asks.bind (asks_pause _) fun _ => ?_
  exact ((asks_consultPages _ _ _ answer.2).mono fun q hq => hq.1).bind fun found => asks_pure _

theorem Consulted.after {outside : σ} (h : Consulted w repo { s with outside } t pages kept)
    (hs : w.Leads s.outside outside) : Consulted w repo s t pages kept where
  slugs := h.slugs
  obtained page hpage := (h.obtained page hpage).mono hs rfl .refl
  asked := h.asked
  fetched := h.fetched
  during k hk := by
    obtain ⟨z, hz, hzt, hinstant⟩ := h.during k hk
    exact ⟨z, hs.trans hz, hzt, hinstant⟩
  memory := h.memory

theorem Inquiry.run_look {q : Inquiry} {found : Outcome} (h : q.look.run w s = (some found, t)) :
    ∃ pages kept, Consulted w q.repo s t pages kept ∧
      found = .ofPages (pagesOf (pages.map fun page => (page.slug, page.source, page.entry.text?)))
        q.repo q.locale q.query [] := by
  obtain ⟨index, s', hindex, h⟩ := run_bind_some h
  obtain ⟨rfl, rfl⟩ := run_pure hindex
  obtain ⟨_, s', hpause, h⟩ := run_bind_some h
  obtain ⟨⟨elapsed, found'⟩, t', hconsult, h⟩ := run_bind_some h
  obtain ⟨rfl, rfl⟩ := run_pure h
  obtain ⟨outside, hpass, rfl⟩ := run_pause hpause
  obtain ⟨pages, kept, hconsulted, hfound⟩ := run_consultPages rfl hconsult
  exact ⟨pages, kept, hconsulted.after (.single (.pass hpass)), hfound⟩

/-- The questions of an inquiry after others of known repositories: each page is fetched at most once,
and while what is published of it lasts, exactly if nothing was known of its repository. -/
structure Frugal (published : String → String → Entry) (since deadline : Nat)
    (known : List String) (q : Inquiry) (questions : List Question) : Prop where
  sublist : questions.Sublist (allPages.map (pageQuestion q.repo))
  once : ∀ slug ∈ allPages, deadline < since + (published (repoName q.repo) slug).lifetime →
    (pageQuestion q.repo slug ∈ questions ↔ repoName q.repo ∉ known)

theorem Frugal.congr {known' : List String} {q : Inquiry} {questions : List Question}
    (h : Frugal published since deadline known q questions) (hknown : known.Perm known') :
    Frugal published since deadline known' q questions :=
  ⟨h.sublist, fun slug hslug hlasting => by rw [h.once slug hslug hlasting, hknown.mem_iff]⟩

theorem Inquiry.look_step (hw : w.Onward) (hpublishes : Publishes w published) {q : Inquiry}
    {found : Outcome} (h : q.look.run w s = (some found, t))
    (hs : Shelved published since deadline known s.memory) (hsince : since ≤ w.instant s.outside)
    (hdeadline : w.instant t.outside ≤ deadline) :
    found = q.found published ∧
      Shelved published since deadline (repoName q.repo :: known) t.memory ∧
      ∃ questions, t.asked = s.asked ++ questions ∧
        Frugal published since deadline known q questions := by
  obtain ⟨pages, kept, hconsulted, rfl⟩ := q.run_look h
  refine ⟨?_, hconsulted.shelved hw hpublishes hs hsince hdeadline, _, hconsulted.asked,
    hconsulted.questions_sublist, fun slug => hconsulted.asks_iff hw hs hdeadline⟩
  rw [hconsulted.shown_eq (hs.offers hpublishes q.repo)]
  rfl

theorem Inquiry.look_series (hw : w.Onward) (hpublishes : Publishes w published)
    {inquiries : List Inquiry} {found : List Outcome}
    (h : (inquiries.mapM look).run w s = (some found, t))
    (hs : Shelved published since deadline known s.memory) (hsince : since ≤ w.instant s.outside)
    (hdeadline : w.instant t.outside ≤ deadline) :
    found = inquiries.map (·.found published) ∧
      ∃ asked : List (List Question), t.asked = s.asked ++ asked.flatten ∧
        asked.length = inquiries.length ∧
        ∀ before q questions after, inquiries.zip asked = before ++ (q, questions) :: after →
          Frugal published since deadline (before.map (repoName ·.1.repo) ++ known) q questions := by
  induction inquiries generalizing s known found with
  | nil =>
      obtain ⟨rfl, rfl⟩ := run_pure h
      exact ⟨rfl, [], by simp, rfl, by simp⟩
  | cons q rest ih =>
      rw [List.mapM_cons] at h
      obtain ⟨first, u, hfirst, h⟩ := run_bind_some h
      obtain ⟨others, u', hothers, h⟩ := run_bind_some h
      obtain ⟨rfl, rfl⟩ := run_pure h
      obtain ⟨rfl, hu, questions, hasked, hfrugal⟩ := look_step hw hpublishes hfirst hs hsince
        (Nat.le_trans (hw.leads (leads_of_run hothers)) hdeadline)
      obtain ⟨rfl, more, hmore, hlength, hseries⟩ := ih hothers hu
        (Nat.le_trans hsince (hw.leads (leads_of_run hfirst)))
      refine ⟨rfl, questions :: more, by simp [hmore, hasked], by simp [hlength], ?_⟩
      intro before q' questions' after hsplit
      rw [List.zip_cons_cons] at hsplit
      cases before with
      | nil =>
          cases hsplit
          exact hfrugal
      | cons p before =>
          rw [List.cons_append] at hsplit
          obtain ⟨rfl, hrest⟩ := List.cons.inj hsplit
          exact (hseries before q' questions' after hrest).congr List.perm_middle

/-- That pages are remembered does not show. Each inquiry of a series finds what it would find without
a memory, at any other time, and each page of a repository is fetched in the first inquiry that is of
it and in no other, as long as what is published of it lasts; be it that it could not be had. -/
theorem page_memory_transparent {w : World σ} (hpatient : w.Patient) (honward : w.Onward)
    {published : String → String → Entry} (hpublishes : Publishes w published) {s : Scene σ}
    (hs : s.memory.pages = .empty) (inquiries : List Inquiry) :
    (∃ found t asked, (inquiries.mapM Inquiry.look).run w s = (some found, t) ∧
      (∀ fresh : Scene σ, fresh.memory.pages = .empty →
        inquiries.map (fun q => (q.look.run w fresh).1) = found.map some) ∧
      t.asked = s.asked ++ asked.flatten ∧ asked.length = inquiries.length ∧
      ∀ before q questions after, inquiries.zip asked = before ++ (q, questions) :: after →
        questions.Sublist (allPages.map (pageQuestion q.repo)) ∧
        ∀ slug ∈ allPages, w.instant t.outside <
            w.instant s.outside + (published (repoName q.repo) slug).lifetime →
          (pageQuestion q.repo slug ∈ questions ↔
            repoName q.repo ∉ before.map (repoName ·.1.repo))) ∧
    ∀ repo repo' : String, ∀ slug ∈ allPages, ∀ slug' ∈ allPages,
      pageKey repo slug = pageKey repo' slug' ↔ repoName repo = repoName repo' ∧ slug = slug' := by
  refine ⟨?_, fun repo repo' slug hslug slug' hslug' => pageKey_inj hslug hslug'⟩
  obtain ⟨found, t, hrun⟩ := hpatient.exists_run (asks_mapM Inquiry.asks_look inquiries) s
  obtain ⟨rfl, asked, hasked, hlength, hseries⟩ := Inquiry.look_series honward hpublishes hrun
    (shelved_nothing published (w.instant s.outside) (w.instant t.outside) hs) (Nat.le_refl _)
    (Nat.le_refl _)
  refine ⟨_, t, asked, hrun, fun fresh hfresh => ?_, hasked, hlength, ?_⟩
  · rw [List.map_map]
    refine List.map_congr_left fun q _ => ?_
    obtain ⟨alone, u, halone⟩ := hpatient.exists_run q.asks_look fresh
    obtain ⟨rfl, _⟩ := Inquiry.look_step honward hpublishes halone
      (shelved_nothing published (w.instant fresh.outside) (w.instant u.outside) hfresh)
      (Nat.le_refl _) (Nat.le_refl _)
    rw [halone]
    rfl
  · intro before q questions after hsplit
    have hfrugal := hseries before q questions after hsplit
    rw [List.append_nil] at hfrugal
    exact ⟨hfrugal.sublist, hfrugal.once⟩

def onePage : World Unit where
  answer
    | .page _ slug, s =>
        (.now (if slug = "Home" then .ok "Welcome" else if slug = "FAQ" then .ok " "
          else .error (.documentation "not found")), s)
    | .overview, s => (.now (.ok none), s)
    | .completion _, s | .stream _, s | .session, s | .accessToken _, s | .wallet _ _, s |
      .orders _ _, s | .transactions _ _, s | .index _ _ _ _ _, s | .search _ _, s =>
        (.now (.error (.io "unreachable")), s)
  pass _ s := some s
  hear _ s := some (true, s)
  today _ := ⟨0, 0⟩
  instant _ := 0

theorem second_inquiry_fetches_nothing :
    onePage.Patient ∧ onePage.Onward ∧ Publishes onePage (fun _ slug => brings onePage "" slug ()) ∧
      ∃ found t, ([⟨"Owner/Repo", .en, "filters", .productHelp⟩,
          ⟨" owner/repo ", .ru, "risk", .debugSupport⟩].mapM Inquiry.look).run onePage
            ⟨(), .empty, []⟩ = (some found, t) ∧
        t.asked.Sublist (allPages.map (pageQuestion "Owner/Repo")) ∧
        ∀ slug ∈ allPages, pageQuestion "Owner/Repo" slug ∈ t.asked := by
  have hpatient : onePage.Patient := fun _ x => ⟨x, rfl⟩
  have honward : onePage.Onward := fun _ _ _ => Nat.le_refl _
  have hpublishes : Publishes onePage (fun _ slug => brings onePage "" slug ()) :=
    fun _ _ _ _ => rfl
  refine ⟨hpatient, honward, hpublishes, ?_⟩
  obtain ⟨⟨found, t, asked, hrun, _, hasked, hlength, hseries⟩, _⟩ :=
    page_memory_transparent hpatient honward hpublishes (s := ⟨(), .empty, []⟩) rfl
      [⟨"Owner/Repo", .en, "filters", .productHelp⟩, ⟨" owner/repo ", .ru, "risk", .debugSupport⟩]
  match asked, hlength with
  | [first, second], _ =>
      have hlasting : ∀ slug, 0 < 0 + (brings onePage "" slug ()).lifetime := by
        intro slug
        cases brings onePage "" slug () <;> simp [Entry.lifetime]
      obtain ⟨hfirst, honce⟩ := hseries [] _ first [_] rfl
      obtain ⟨hsecond, hnever⟩ := hseries [_] _ second [] rfl
      have hknown : repoName " owner/repo " ∈ [repoName "Owner/Repo"] := by decide +kernel
      have hnothing : second = [] := by
        rw [List.eq_nil_iff_forall_not_mem]
        intro question hquestion
        obtain ⟨slug, hslug, rfl⟩ := List.mem_map.1 (hsecond.subset hquestion)
        exact (hnever slug hslug (hlasting slug)).1 hquestion hknown
      refine ⟨found, t, hrun, ?_⟩
      simp only [hasked, hnothing, List.flatten_cons, List.flatten_nil, List.append_nil]
      exact ⟨hfirst, fun slug hslug => (honce slug hslug (hlasting slug)).2 List.not_mem_nil⟩

end Knowledge

end Advisor

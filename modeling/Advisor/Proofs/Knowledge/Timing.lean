import Advisor.Proofs.Consultation.Stages
import Advisor.Proofs.Knowledge.Consulting
import Advisor.Proofs.Knowledge.Merging
import Advisor.Proofs.Sorted
import Mathlib.Data.Int.Order.Basic

/-!
What a turn finds out does not depend on what comes first. The documentation and the web are looked up
at the same time, each in several places; what is found depends on what is there alone, and on which
queries take too long.
-/

namespace Advisor.Knowledge

open Dialogue

/-- What there is of documentation: what the index has, and what is to be had of each page. -/
structure Shelves where
  index : Except Failure Outcome
  pages : String → Entry

/-- What a search brings for each query, and which queries take too long. -/
structure Engine where
  results : String → Except Failure (List Web.Result)
  slow : String → Bool

def Engine.result (e : Engine) (limitMs : Nat) (query : String) : Except Failure (List Web.Result) :=
  if e.slow query then .error (.timedOut limitMs) else e.results query

section Outcomes

variable (library : Library) (plan : Plan) (turn : Turn)

def Shelves.answer (sh : Shelves) : Option (Except Failure Outcome) :=
  if plan.needWiki && library.hasIndex then some sh.index else none

def Shelves.outcome (sh : Shelves) : Outcome :=
  if plan.intent = .smalltalk || !plan.needWiki then default
  else
    match Outcome.ofIndex? (sh.answer library plan) with
    | some found => found
    | none =>
        .ofPages (shown sh.pages) turn.wikiRepo turn.locale turn.userMessage
          (indexWarnings (sh.answer library plan))

def Engine.outcome (e : Engine) : Outcome :=
  if plan.intent = .smalltalk || !plan.needWeb then default
  else if library.hasSearch then
    .ofResults ((Web.queries turn.userMessage plan.intent turn.locale).map
      (e.result library.searchLimitMs)) turn.locale
  else Web.unavailable

/-- Between two scenes all that a turn may look up is there as given. Of when it comes nothing is
said but whether that is too late for a query. -/
structure Stocks (w : World σ) (s t : Scene σ) (sh : Shelves) (e : Engine) : Prop where
  index : ∀ x, w.Leads s.outside x → w.Leads x t.outside →
    (w.answer (.index turn.wikiRepo turn.locale turn.userMessage plan.intent topPages) x).1.result =
      sh.index
  pages : Offers w s t turn.wikiRepo sh.pages
  late : ∀ query x, w.Leads s.outside x → w.Leads x t.outside → e.slow query = true →
    library.searchLimitMs < (w.answer (.search query turn.locale) x).1.lapse.ms
  timely : ∀ query x, w.Leads s.outside x → w.Leads x t.outside → e.slow query = false →
    (w.answer (.search query turn.locale) x).1.lapse.ms ≤ library.searchLimitMs ∧
      (w.answer (.search query turn.locale) x).1.result = e.results query

end Outcomes

variable {w : World σ} {s t u : Scene σ} {library : Library} {plan : Plan} {turn : Turn}
  {sh : Shelves} {e : Engine}

theorem Offers.mono {s' t' : Scene σ} {pages : String → Entry} (h : Offers w s t repo pages)
    (hs : w.Leads s.outside s'.outside) (hm : s'.memory = s.memory)
    (ht : w.Leads t'.outside t.outside) : Offers w s' t' repo pages := by
  intro slug hslug x hx hxt
  rw [hm]
  exact h slug hslug x (hs.trans hx) (hxt.trans ht)

theorem Stocks.mono {s' t' : Scene σ} (h : Stocks library plan turn w s t sh e)
    (hs : w.Leads s.outside s'.outside) (hm : s'.memory = s.memory)
    (ht : w.Leads t'.outside t.outside) : Stocks library plan turn w s' t' sh e where
  index x hx hxt := h.index x (hs.trans hx) (hxt.trans ht)
  pages := h.pages.mono hs hm ht
  late query x hx hxt := h.late query x (hs.trans hx) (hxt.trans ht)
  timely query x hx hxt := h.timely query x (hs.trans hx) (hxt.trans ht)

theorem Stocks.limited (h : Stocks library plan turn w s t sh e) {x : σ} (hx : w.Leads s.outside x)
    (hxt : w.Leads x t.outside) (query : String) :
    ((w.answer (.search query turn.locale) x).1.limited library.searchLimitMs).result =
      e.result library.searchLimitMs query := by
  unfold Arrival.limited Engine.result
  cases hslow : e.slow query with
  | true =>
      have hlate := h.late query x hx hxt hslow
      rw [if_neg (by omega), if_pos rfl]
  | false =>
      obtain ⟨htimely, hresult⟩ := h.timely query x hx hxt hslow
      rw [if_pos htimely, if_neg (by simp)]
      exact hresult

theorem run_searches {queries : List String} {arrivals : List (Arrival (List Web.Result))}
    (hstocks : Stocks library plan turn w s t sh e)
    (h : (queries.mapM fun query => do
      let arrival ← put (.search query turn.locale)
      return arrival.limited library.searchLimitMs).run w s = (some arrivals, t)) :
    arrivals.map (·.result) = queries.map (e.result library.searchLimitMs) ∧
      t.memory = s.memory := by
  induction queries generalizing s arrivals with
  | nil =>
      obtain ⟨rfl, rfl⟩ := run_pure h
      exact ⟨rfl, rfl⟩
  | cons query rest ih =>
      rw [List.mapM_cons] at h
      obtain ⟨first, u, hfirst, h⟩ := run_bind_some h
      obtain ⟨others, u', hothers, h⟩ := run_bind_some h
      obtain ⟨rfl, rfl⟩ := run_pure h
      have hsu := leads_of_run hfirst
      have hut := leads_of_run hothers
      obtain ⟨arrival, v, hput, hfirst⟩ := run_bind_some hfirst
      obtain ⟨rfl, rfl⟩ := run_pure hfirst
      obtain ⟨_, hmemory⟩ := run_put hput
      obtain ⟨hresults, hmemory'⟩ := ih (hstocks.mono hsu hmemory .refl) hothers
      cases hput
      refine ⟨?_, hmemory'.trans hmemory⟩
      rw [List.map_cons, List.map_cons, hresults, hstocks.limited .refl (hsu.trans hut)]

theorem run_webFor {found : Lapse × Outcome} (hstocks : Stocks library plan turn w s t sh e)
    (hsmall : plan.intent ≠ .smalltalk)
    (h : (webFor library plan turn).run w s = (some found, t)) :
    found.2 = e.outcome library plan turn ∧ t.memory = s.memory := by
  unfold webFor putWeb at h
  unfold Engine.outcome
  split at h
  · rename_i hneed
    rw [if_neg (by simp [hsmall, hneed])]
    split at h
    · rename_i hsearch
      obtain ⟨arrivals, u, hsearches, h⟩ := run_bind_some h
      obtain ⟨rfl, rfl⟩ := run_pure h
      obtain ⟨hresults, hmemory⟩ := run_searches hstocks hsearches
      exact ⟨by rw [if_pos hsearch, ← hresults], hmemory⟩
    · rename_i hsearch
      obtain ⟨rfl, rfl⟩ := run_pure h
      exact ⟨by rw [if_neg hsearch], rfl⟩
  · rename_i hneed
    obtain ⟨rfl, rfl⟩ := run_pure h
    exact ⟨by rw [if_pos (by simp [hneed])], rfl⟩

theorem run_indexFor {found : Lapse × Option (Except Failure Outcome)}
    (hstocks : Stocks library plan turn w s t sh e)
    (h : (indexFor library plan turn).run w s = (some found, t)) :
    found.2 = sh.answer library plan ∧ t.memory = s.memory := by
  have hst := leads_of_run h
  unfold indexFor putIndex at h
  unfold Shelves.answer
  split at h
  · rename_i hneed
    split at h
    · rename_i hindex
      obtain ⟨arrival, u, hput, h⟩ := run_bind_some h
      obtain ⟨rfl, rfl⟩ := run_pure h
      obtain ⟨_, hmemory⟩ := run_put hput
      cases hput
      exact ⟨by rw [if_pos (by simp [hneed, hindex]), hstocks.index _ .refl hst], hmemory⟩
    · rename_i hindex
      obtain ⟨rfl, rfl⟩ := run_pure h
      exact ⟨by rw [if_neg (by simp [hindex])], rfl⟩
  · rename_i hneed
    obtain ⟨rfl, rfl⟩ := run_pure h
    exact ⟨by rw [if_neg (by simp [hneed])], rfl⟩

theorem run_documentationFor {found : Nat × Outcome} (hstocks : Stocks library plan turn w s t sh e)
    (hsmall : plan.intent ≠ .smalltalk)
    (h : (documentationFor plan turn (sh.answer library plan)).run w s = (some found, t)) :
    found.2 = sh.outcome library plan turn := by
  obtain ⟨elapsed, found⟩ := found
  unfold documentationFor at h
  unfold Shelves.outcome
  split at h
  · rename_i hneed
    rw [if_neg (by simp [hsmall, hneed])]
    cases hanswer : Outcome.ofIndex? (sh.answer library plan) with
    | some indexed =>
        rw [consultPages, hanswer] at h
        obtain ⟨he, rfl⟩ := run_pure h
        cases he
        rfl
    | none =>
        obtain ⟨pages, kept, hconsulted, rfl⟩ := run_consultPages hanswer h
        exact congrArg (Outcome.ofPages · _ _ _ _) (hconsulted.shown_eq hstocks.pages)
  · rename_i hneed
    obtain ⟨he, rfl⟩ := run_pure h
    cases he
    rw [if_pos (by simp [hneed])]

theorem run_findings {found : Prompt.Findings} (hstocks : Stocks library plan turn w s t sh e)
    (h : (findings library plan turn).run w s = (some found, t)) :
    found = ⟨(sh.outcome library plan turn).snippets, (e.outcome library plan turn).snippets,
      (sh.outcome library plan turn).warnings ++ (e.outcome library plan turn).warnings⟩ := by
  rw [findings] at h
  split at h
  · rename_i hsmall
    obtain ⟨rfl, rfl⟩ := run_pure h
    rw [Shelves.outcome, if_pos (by simp [hsmall]), Engine.outcome, if_pos (by simp [hsmall])]
    rfl
  · rename_i hsmall
    obtain ⟨⟨indexLapse, answer⟩, s₁, hindex, h⟩ := run_bind_some h
    obtain ⟨⟨webLapse, web⟩, s₂, hweb, h⟩ := run_bind_some h
    obtain ⟨_, s₃, hpause, h⟩ := run_bind_some h
    obtain ⟨⟨elapsed, wiki⟩, s₄, hwiki, h⟩ := run_bind_some h
    obtain ⟨_, s₅, hrest, h⟩ := run_bind_some h
    obtain ⟨rfl, rfl⟩ := run_pure h
    have h₀₁ := leads_of_run hindex
    have h₁₂ := leads_of_run hweb
    have h₂₃ := leads_of_run hpause
    have h₃₄ := leads_of_run hwiki
    have h₄₅ := leads_of_run hrest
    have h₂₅ := h₂₃.trans (h₃₄.trans h₄₅)
    obtain ⟨outside, _, rfl⟩ := run_pause hpause
    obtain ⟨hanswer, hmemory₁⟩ := run_indexFor (hstocks.mono .refl rfl (h₁₂.trans h₂₅)) hindex
    obtain ⟨hfound, hmemory₂⟩ :=
      run_webFor (hstocks.mono h₀₁ hmemory₁ h₂₅) hsmall hweb
    obtain rfl : answer = _ := hanswer
    obtain rfl : web = _ := hfound
    have hdocs := run_documentationFor (hstocks.mono ((h₀₁.trans h₁₂).trans h₂₃)
      (hmemory₂.trans hmemory₁) h₄₅) hsmall hwiki
    obtain rfl : wiki = _ := hdocs
    rfl

/-- Snippets of pages as they are shown: the best first, and those that are equally good in the order
of their pages. When none is any good, they come as they are. -/
structure InOrder (pages ranked : List Snippet) : Prop where
  best : pages.any (·.score > 0) = true →
    ranked.Pairwise fun a b => Number.orderKey b.score ≤ Number.orderKey a.score
  ties : ∀ key, (ranked.filter (Number.orderKey ·.score = key)).Sublist pages
  plain : pages.any (·.score > 0) = false → ranked = pages.take topPages

theorem rankPages_inOrder (pages : List Page) (repo : String) (locale : Locale) (query : String) :
    InOrder (pages.map (Page.snippet repo locale (keywords query)))
      (rankPages pages repo locale query) := by
  unfold rankPages
  generalize pages.map (Page.snippet repo locale (keywords query)) = found
  cases hany : found.any (·.score > 0) with
  | true =>
      refine ⟨fun _ => ?_, fun key => ?_, fun h => absurd (hany.symm.trans h) (by simp)⟩
      · have hsorted := pairwise_mergeSort (fun s : Snippet => Number.orderKey s.score) found
        simp only [hany, if_true]
        exact (hsorted.filter _).take
      · simp only [hany, if_true]
        refine ((List.take_sublist _ _).filter _).trans ?_
        refine (List.filter_sublist.filter _).trans ?_
        rw [filter_mergeSort fun s : Snippet => Number.orderKey s.score]
        exact List.filter_sublist
  | false =>
      refine ⟨fun h => absurd (hany.symm.trans h) (by simp), fun key => ?_, fun _ => by simp [hany]⟩
      simpa [hany] using List.filter_sublist.trans (List.take_sublist _ _)

theorem ofPages_inOrder (pages : List Page) (repo : String) (locale : Locale) (query : String)
    (warnings : List String) :
    InOrder (pages.map (Page.snippet repo locale (keywords query)))
      (Outcome.ofPages pages repo locale query warnings).snippets := by
  unfold Outcome.ofPages
  split
  · rename_i hempty
    rw [List.isEmpty_iff.1 hempty]
    constructor <;> simp
  · exact rankPages_inOrder pages repo locale query

theorem merge_inOrder (results : List Web.Result) (locale : Locale) :
    ∃ kept : List Web.Result, kept.Sublist results ∧ Web.merge results locale =
      kept.zipIdx.map fun (r, i) => r.snippet locale (Web.maxSnippets - i) :=
  ⟨_, (List.take_sublist _ _).trans (Web.visible_sublist _ _), rfl⟩

theorem Engine.outcome_inOrder (e : Engine) (library : Library) (plan : Plan) (turn : Turn) :
    ∃ kept : List Web.Result,
      kept.Sublist ((Web.queries turn.userMessage plan.intent turn.locale).filterMap fun query =>
        (e.result library.searchLimitMs query).toOption).flatten ∧
      (e.outcome library plan turn).snippets =
        kept.zipIdx.map fun (r, i) => r.snippet turn.locale (Web.maxSnippets - i) := by
  unfold Engine.outcome
  split
  · exact ⟨[], List.nil_sublist _, rfl⟩
  · split
    · obtain ⟨kept, hkept, hmerge⟩ := merge_inOrder
        (((Web.queries turn.userMessage plan.intent turn.locale).map
          (e.result library.searchLimitMs)).filterMap Except.toOption).flatten turn.locale
      rw [List.filterMap_map] at hkept
      refine ⟨kept, hkept, ?_⟩
      rw [Outcome.ofResults, hmerge]
    · exact ⟨[], List.nil_sublist _, rfl⟩

/-- Whatever the delays, and whichever answer comes first, a turn finds out what there is: the
documentation that its index and its pages have, and what the web has for those queries that do not take
too long, each without regard to the other. -/
theorem findings_untimed {w : World σ} (hpatient : w.Patient) {s : Scene σ} {library : Library}
    {plan : Plan} {turn : Turn} {sh : Shelves} {e : Engine}
    (hstocks : Stocks library plan turn w s ((findings library plan turn).run w s).2 sh e) :
    (∃ t, (findings library plan turn).run w s =
      (some ⟨(sh.outcome library plan turn).snippets, (e.outcome library plan turn).snippets,
        (sh.outcome library plan turn).warnings ++ (e.outcome library plan turn).warnings⟩, t)) ∧
    (plan.intent ≠ .smalltalk → plan.needWiki → Outcome.ofIndex? (sh.answer library plan) = none →
      InOrder ((shown sh.pages).map
          (Page.snippet turn.wikiRepo turn.locale (keywords turn.userMessage)))
        (sh.outcome library plan turn).snippets) ∧
    ∃ kept : List Web.Result,
      kept.Sublist ((Web.queries turn.userMessage plan.intent turn.locale).filterMap fun query =>
        (e.result library.searchLimitMs query).toOption).flatten ∧
      (e.outcome library plan turn).snippets =
        kept.zipIdx.map fun (r, i) => r.snippet turn.locale (Web.maxSnippets - i) := by
  refine ⟨?_, fun hsmall hneed hnone => ?_, e.outcome_inOrder library plan turn⟩
  · obtain ⟨found, t, hrun⟩ := hpatient.exists_run (asks_findings library plan turn) s
    rw [hrun] at hstocks
    exact ⟨t, by rw [hrun, run_findings hstocks hrun]⟩
  · rw [Shelves.outcome, if_neg (by simp [hsmall, hneed]), hnone]
    exact ofPages_inOrder _ _ _ _ _

/-- A world of two pages, with an index that has nothing and a search that finds what it is asked for;
each answer takes its time. -/
def paced (delay : Question → Nat) : World Unit where
  answer
    | .index repo locale query intent k, s =>
        (⟨⟨delay (.index repo locale query intent k), false⟩, .ok ⟨[], ["stale index"]⟩⟩, s)
    | .page repo slug, s =>
        (⟨⟨delay (.page repo slug), false⟩,
          if slug = "Home" then .ok "filters" else if slug = "Filters" then .ok "profit filters"
          else .error (.documentation "not found")⟩, s)
    | .search query locale, s =>
        (⟨⟨delay (.search query locale), false⟩, .ok [⟨query, "", "found"⟩]⟩, s)
    | .completion _, s | .stream _, s | .session, s | .accessToken _, s | .wallet _ _, s |
      .orders _ _, s | .transactions _ _, s | .overview, s =>
        (.now (.error (.io "unreachable")), s)
  pass _ s := some s
  hear _ s := some (true, s)
  today _ := ⟨0, 0⟩
  instant _ := 0

theorem paced_patient (delay : Question → Nat) : (paced delay).Patient := fun _ x => ⟨x, rfl⟩

def twoPages : Shelves where
  index := .ok ⟨[], ["stale index"]⟩
  pages slug := if slug = "Home" then .content "filters"
    else if slug = "Filters" then .content "profit filters" else .failed

def echoed : Engine where
  results query := .ok [⟨query, "", "found"⟩]
  slow query := query = "profit filters"

theorem paced_brings (delay : Question → Nat) (repo : String) :
    ∀ slug ∈ allPages, brings (paced delay) repo slug () = twoPages.pages slug := by
  have hone : ∀ slug ∈ allPages, brings (paced fun _ => 0) "" slug () = twoPages.pages slug := by
    decide +kernel
  exact hone

theorem paced_stocks {delay : Question → Nat}
    (hdelay : ∀ query locale, 10000 < delay (.search query locale) ↔ query = "profit filters")
    (plan : Plan) (turn : Turn) (t : Scene Unit) :
    Stocks ⟨true, true, 10000⟩ plan turn (paced delay) ⟨(), .empty, []⟩ t twoPages echoed where
  index _ _ _ := rfl
  pages slug hslug _ _ _ := paced_brings delay turn.wikiRepo slug hslug
  late query _ _ _ hslow := (hdelay query turn.locale).2 (of_decide_eq_true hslow)
  timely query _ _ _ hslow :=
    ⟨Nat.le_of_not_lt fun h => of_decide_eq_false hslow ((hdelay query turn.locale).1 h), rfl⟩

def hasty : Question → Nat
  | .search query _ => if query = "profit filters" then 10001 else 0
  | _ => 0

def tardy : Question → Nat
  | .search query _ => if query = "profit filters" then 60000 else 90
  | .page _ slug => if slug = "Home" then 800 else 30
  | _ => 70

theorem hasty_search (query : String) (locale : Locale) :
    10000 < hasty (.search query locale) ↔ query = "profit filters" := by
  rw [hasty]
  split <;> simp_all

theorem tardy_search (query : String) (locale : Locale) :
    10000 < tardy (.search query locale) ↔ query = "profit filters" := by
  rw [tardy]
  split <;> simp_all

def thorough : Dialogue Prompt.Findings :=
  findings ⟨true, true, 10000⟩ { Plan.default .productHelp with needWeb := true }
    (.plain "profit filters")

theorem same_findings_when_tardy :
    (paced hasty).Patient ∧ (paced tardy).Patient ∧
      (∀ delay ∈ [hasty, tardy], Stocks ⟨true, true, 10000⟩
        { Plan.default .productHelp with needWeb := true } (.plain "profit filters") (paced delay)
          ⟨(), .empty, []⟩ (thorough.run (paced delay) ⟨(), .empty, []⟩).2 twoPages echoed) ∧
      ∃ found t u, thorough.run (paced hasty) ⟨(), .empty, []⟩ = (some found, t) ∧
        thorough.run (paced tardy) ⟨(), .empty, []⟩ = (some found, u) := by
  have hhasty := paced_stocks hasty_search { Plan.default .productHelp with needWeb := true }
    (.plain "profit filters")
  have htardy := paced_stocks tardy_search { Plan.default .productHelp with needWeb := true }
    (.plain "profit filters")
  obtain ⟨⟨t, hrun⟩, _⟩ := findings_untimed (paced_patient hasty) (hhasty _)
  obtain ⟨⟨u, hrun'⟩, _⟩ := findings_untimed (paced_patient tardy) (htardy _)
  exact ⟨paced_patient hasty, paced_patient tardy, by simp [hhasty, htardy], _, t, u, hrun, hrun'⟩

theorem mergeSort_swap {le : α → α → Bool} {a b : α} (h : le a b = false) :
    [a, b].mergeSort le = [b, a] := by
  simp [List.mergeSort, h]

/-- A page that fits better is shown before one that comes first. -/
theorem better_page_first :
    ∃ found t, thorough.run (paced hasty) ⟨(), .empty, []⟩ = (some found, t) ∧
      found.wiki.map (·.page) = ["Filters", "Home"] ∧
      ¬(found.wiki.map (·.page)).Sublist allPages := by
  obtain ⟨found, t, hrun⟩ := (paced_patient hasty).exists_run (d := thorough)
    (asks_findings _ _ _) ⟨(), .empty, []⟩
  obtain rfl := run_findings (paced_stocks hasty_search _ _ t) hrun
  have hwiki : (twoPages.outcome ⟨true, true, 10000⟩
      { Plan.default .productHelp with needWeb := true } (.plain "profit filters")).snippets.map
        (·.page) = ["Filters", "Home"] := by
    have hshown : shown twoPages.pages =
        [⟨"Home", .wiki, "filters"⟩, ⟨"Filters", .wiki, "profit filters"⟩] := by decide +kernel
    change (Outcome.ofPages (shown twoPages.pages) "wiki" .en "profit filters"
      ["stale index"]).snippets.map (·.page) = _
    rw [hshown, Outcome.ofPages, if_neg (by decide), rankPages, List.map_cons, List.map_cons,
      List.map_nil, if_pos (by decide +kernel), mergeSort_swap (by decide +kernel)]
    decide +kernel
  exact ⟨_, t, hrun, hwiki, by simp only [hwiki]; decide⟩

end Advisor.Knowledge

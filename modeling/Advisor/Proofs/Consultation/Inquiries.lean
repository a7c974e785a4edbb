import Advisor.Account.Lookup
import Advisor.Answer.Correction
import Advisor.Knowledge.Retrieval
import Advisor.Plan.Planning
import Advisor.Proofs.Dialogue.Asking

namespace Advisor

open Dialogue

/-! Whom each stage of a turn asks. -/

namespace Account

theorem asks_transactions (accountId token : String) :
    (Account.transactions accountId token).Asks (Question.About .account) := by
  rw [Account.transactions]
  refine Asks.bind (asks_remembered _) fun remembered => ?_
  split
  · exact asks_pure _
  · exact Asks.bind (asks_put rfl) fun arrival => asks_pure _

theorem asks_takePart (accountId : String) (locale : Locale) (v : View) (part : Bool × Part) :
    (takePart accountId locale v part).Asks (Question.About .account) := by
  unfold takePart
  simp only
  split
  · exact (asks_remember _ _).bind fun _ => asks_clock.bind fun now => asks_pure _
  · exact asks_clock.bind fun now => asks_pure _

theorem asks_consult (accountId token : String) (locale : Locale) :
    (consult accountId token locale).Asks (Question.About .account) := by
  rw [consult]
  refine Asks.bind (asks_put rfl) fun wallet => Asks.bind (asks_put rfl) fun orders => ?_
  refine Asks.bind (asks_transactions accountId token) fun ts => ?_
  exact Asks.bind (asks_takeEach (asks_takePart accountId locale) _ _ _) fun _ => asks_pure _

theorem asks_lookup (locale : Locale) : (lookup locale).Asks (Question.About .account) := by
  rw [lookup]
  refine Asks.bind (asks_await rfl) fun session => ?_
  split
  · exact asks_pure _
  · exact asks_pure _
  · refine Asks.bind (asks_await rfl) fun token => ?_
    split
    · exact asks_consult _ _ locale
    · exact asks_pure _

end Account

/-- A question for the answer: a call, all at once or as a stream, or the correction of what it
brought. -/
def Answer.IsFor (call : Call) (streamMs : Nat) (intent : Intent) (locale : Locale)
    (q : Question) : Prop :=
  q = .completion call ∨ q = .stream { call with timeoutMs := streamMs } ∨
    ∃ refused reason, q = .completion (correctiveCall call refused reason intent locale)

theorem Answer.asks_checked (rules : List Rule) (call : Call) (streamMs : Nat) (first : Reply)
    (intent : Intent) (locale : Locale) :
    (checked rules call first intent locale).Asks (IsFor call streamMs intent locale) := by
  rw [checked]
  split
  · exact asks_pure _
  · refine Asks.bind (asks_await ?_) fun second => asks_pure _
    exact .inr (.inr ⟨_, _, rfl⟩)

theorem Plan.asks_forTurn (planner : Planner) (turn : Turn) (intent : Intent) :
    (forTurn planner turn intent).Asks (· = .completion (planner.call turn intent)) := by
  rw [forTurn]
  split
  · refine Asks.bind ?_ fun reply => asks_pure _
    apply asks_askWithin
    rfl
  · exact asks_pure _

namespace Knowledge

/-- A question for a text of the documentation, rather than for what its index has. -/
def IsText (q : Question) : Prop := q = .overview ∨ ∃ repo slug, q = .page repo slug

theorem IsText.about {q : Question} (h : IsText q) : q.About .documentation := by
  rcases h with rfl | ⟨repo, slug, rfl⟩ <;> rfl

theorem asks_underway {kind : Question → Prop} (repo slug : String) (source : Source)
    {fetch : Dialogue (Arrival String)} (hf : fetch.Asks kind) :
    (underway repo slug source fetch).Asks kind := by
  rw [underway]
  refine Asks.bind (asks_remembered _) fun remembered => ?_
  split
  · exact asks_pure _
  · exact hf.bind fun arrival => asks_pure _

theorem asks_allUnderway (repo : String) : (allUnderway repo).Asks IsText := by
  rw [allUnderway]
  refine Asks.bind (asks_mapM (fun slug => ?_) wikiPages) fun wiki => ?_
  · exact asks_underway repo slug .wiki (asks_put (.inr ⟨repo, slug, rfl⟩))
  · refine Asks.bind (asks_underway repo _ _ ?_) fun overview => asks_pure _
    exact Asks.bind (asks_put (.inl rfl)) fun arrival => asks_pure _

theorem asks_rememberPage {kind : Question → Prop} (repo : String) (u : Underway) :
    (rememberPage repo u).Asks kind := by
  rw [rememberPage]
  split
  · exact asks_remember _ _
  · exact asks_pure _

theorem asks_consultPages (repo : String) (locale : Locale) (query : String)
    (answer : Option (Except Failure Outcome)) :
    (consultPages repo locale query answer).Asks fun q =>
      IsText q ∧ Outcome.ofIndex? answer = none := by
  rw [consultPages]
  split
  · exact asks_pure _
  · rename_i hnone
    refine Asks.bind ((asks_allUnderway repo).mono fun q hq => ⟨hq, hnone⟩) fun pages => ?_
    refine Asks.bind ?_ fun elapsed => asks_pure _
    exact Asks.bind (asks_takeEach (fun _ u => asks_rememberPage repo u) _ _ _) fun _ => asks_pure _

theorem asks_putSearches (limitMs : Nat) (message : String) (intent : Intent) (locale : Locale) :
    (putSearches limitMs message intent locale).Asks (Question.About .web) := by
  rw [putSearches]
  refine asks_mapM (fun query => ?_) _
  exact Asks.bind (asks_put rfl) fun arrival => asks_pure _

theorem asks_putWeb (hasSearch : Bool) (limitMs : Nat) (message : String) (intent : Intent)
    (locale : Locale) :
    (putWeb hasSearch limitMs message intent locale).Asks (Question.About .web) := by
  rw [putWeb]
  split
  · exact Asks.bind (asks_putSearches limitMs message intent locale) fun arrivals => asks_pure _
  · exact asks_pure _

theorem course_putIndex {r : Option (Lapse × Option (Except Failure Outcome))}
    (h : Course (putIndex hasIndex repo locale query intent) acts r) :
    (hasIndex = false ∧ acts = [] ∧ r = some (.zero, none)) ∨
      (hasIndex = true ∧ ∃ arrival,
        acts = [.asked (.index repo locale query intent topPages) arrival] ∧
        r = some (arrival.lapse, some arrival.result)) := by
  rw [putIndex] at h
  split at h
  · rename_i hasIndex
    rcases course_bind h with ⟨arrival, before, after, rfl, hput, hafter⟩ | ⟨_, hput⟩
    · obtain ⟨arrival', rfl, he⟩ := course_put hput
      obtain ⟨rfl, rfl⟩ := course_pure hafter
      cases he
      exact .inr ⟨hasIndex, arrival, rfl, rfl⟩
    · obtain ⟨_, _, he⟩ := course_put hput
      cases he
  · rename_i hasIndex
    obtain ⟨rfl, rfl⟩ := course_pure h
    exact .inl ⟨by simpa using hasIndex, rfl, rfl⟩

theorem Outcome.snippets_of_ofIndex? {result : Except Failure Outcome}
    (h : ofIndex? (some result) = none) : ∀ found, result = .ok found → found.snippets = [] := by
  rintro found rfl
  by_cases hempty : found.snippets.isEmpty
  · exact List.isEmpty_iff.1 hempty
  · rw [ofIndex?, if_neg hempty] at h
    cases h

/-- What is asked for a plan, in this order: the index, the web, and the texts if the index has
nothing. -/
structure Sought (library : Library) (plan : Plan) (turn : Turn) (index web texts : List Act) :
    Prop where
  indexed : index = [] ∨ plan.needWiki ∧ library.hasIndex ∧ ∃ arrival, index =
    [.asked (.index turn.wikiRepo turn.locale turn.userMessage plan.intent topPages) arrival]
  searched : ∀ a ∈ web, plan.needWeb ∧ a.Asks (Question.About .web)
  fetched : ∀ a ∈ texts, plan.needWiki ∧ a.Asks IsText
  unindexed : texts ≠ [] → library.hasIndex = false ∨ ∃ arrival, index =
      [.asked (.index turn.wikiRepo turn.locale turn.userMessage plan.intent topPages) arrival] ∧
    ∀ found, arrival.result = .ok found → found.snippets = []

theorem course_indexFor {r : Option (Lapse × Option (Except Failure Outcome))}
    (h : Course (indexFor library plan turn) acts r) :
    ∃ lapse answer, r = some (lapse, answer) ∧
      ((answer = none ∧ acts = [] ∧ (plan.needWiki → library.hasIndex = false)) ∨
        (plan.needWiki ∧ library.hasIndex ∧ ∃ arrival, answer = some arrival.result ∧ acts = [.asked
          (.index turn.wikiRepo turn.locale turn.userMessage plan.intent topPages) arrival])) := by
  rw [indexFor] at h
  split at h
  · rename_i hneed
    rcases course_putIndex h with ⟨hasIndex, rfl, rfl⟩ | ⟨hasIndex, arrival, rfl, rfl⟩
    · exact ⟨_, _, rfl, .inl ⟨rfl, rfl, fun _ => hasIndex⟩⟩
    · exact ⟨_, _, rfl, .inr ⟨hneed, hasIndex, arrival, rfl, rfl⟩⟩
  · rename_i hneed
    obtain ⟨rfl, rfl⟩ := course_pure h
    exact ⟨_, _, rfl, .inl ⟨rfl, rfl, fun h => absurd h hneed⟩⟩

theorem asks_indexFor (library : Library) (plan : Plan) (turn : Turn) :
    (indexFor library plan turn).Asks (Question.About .documentation) := by
  unfold indexFor putIndex
  split
  · split
    · exact Asks.bind (asks_put rfl) fun arrival => asks_pure _
    · exact asks_pure _
  · exact asks_pure _

theorem asks_webFor (library : Library) (plan : Plan) (turn : Turn) :
    (webFor library plan turn).Asks fun q => plan.needWeb ∧ q.About .web := by
  rw [webFor]
  split
  · rename_i hneed
    exact (asks_putWeb _ _ _ _ _).mono fun q hq => ⟨hneed, hq⟩
  · exact asks_pure _

theorem asks_documentationFor (plan : Plan) (turn : Turn)
    (answer : Option (Except Failure Outcome)) :
    (documentationFor plan turn answer).Asks fun q =>
      plan.needWiki ∧ IsText q ∧ Outcome.ofIndex? answer = none := by
  rw [documentationFor]
  split
  · rename_i hneed
    exact (asks_consultPages _ _ _ answer).mono fun q hq => ⟨hneed, hq⟩
  · exact asks_pure _

theorem asks_findings (library : Library) (plan : Plan) (turn : Turn) :
    (findings library plan turn).Asks fun q => q.About .documentation ∨ q.About .web := by
  rw [findings]
  split
  · exact asks_pure _
  · refine Asks.bind ((asks_indexFor library plan turn).mono fun q hq => .inl hq) fun index => ?_
    refine Asks.bind ((asks_webFor library plan turn).mono fun q hq => .inr hq.2) fun web => ?_
    refine Asks.bind (asks_pause _) fun _ => ?_
    refine Asks.bind ((asks_documentationFor plan turn _).mono
      fun q hq => .inl hq.2.1.about) fun wiki => ?_
    exact Asks.bind (asks_pause _) fun _ => asks_pure _

theorem course_unindexed {rest : Lapse × Outcome → Dialogue β}
    (answer : Option (Except Failure Outcome))
    (hrest : ∀ found, (rest found).Asks fun q =>
      plan.needWiki ∧ IsText q ∧ Outcome.ofIndex? answer = none)
    (h : Course (webFor library plan turn >>= rest) acts r) :
    ∃ web texts, acts = web ++ texts ∧
      (∀ a ∈ web, plan.needWeb ∧ a.Asks (Question.About .web)) ∧
      ∀ a ∈ texts, (plan.needWiki ∧ Outcome.ofIndex? answer = none) ∧
        a.Asks IsText := by
  have searched {web : List Act} {r : Option (Lapse × Outcome)}
      (hw : Course (webFor library plan turn) web r) :
      ∀ a ∈ web, plan.needWeb ∧ a.Asks (Question.About .web) := by
    intro a ha
    obtain ⟨q, arrival, rfl, hneed, hq⟩ := (asks_webFor library plan turn).course hw a ha
    exact ⟨hneed, q, arrival, rfl, hq⟩
  rcases course_bind h with ⟨found, web, texts, rfl, hw, ht⟩ | ⟨_, hw⟩
  · refine ⟨web, texts, rfl, searched hw, fun a ha => ?_⟩
    obtain ⟨q, arrival, rfl, hneed, hq, hnone⟩ := (hrest found).course ht a ha
    exact ⟨⟨hneed, hnone⟩, q, arrival, rfl, hq⟩
  · exact ⟨acts, [], by simp, searched hw, by simp⟩

theorem course_findings {r : Option Prompt.Findings}
    (h : Course (findings library plan turn) acts r) :
    ∃ index web texts, acts = index ++ web ++ texts ∧ Sought library plan turn index web texts ∧
      (plan.intent = .smalltalk → acts = []) := by
  rw [findings] at h
  split at h
  · obtain ⟨rfl, _⟩ := course_pure h
    exact ⟨[], [], [], rfl, ⟨.inl rfl, by simp, by simp, by simp⟩, fun _ => rfl⟩
  · rename_i hsmall
    rcases course_bind h with ⟨⟨lapse, answer⟩, index, after, rfl, hi, ha⟩ | ⟨_, hi⟩
    · obtain ⟨web, texts, rfl, hweb, htexts⟩ := course_unindexed answer (fun found =>
        (asks_pause _).bind fun _ => (asks_documentationFor plan turn answer).bind fun wiki =>
          (asks_pause _).bind fun _ => asks_pure _) ha
      refine ⟨index, web, texts, by simp, ?_, fun hs => absurd hs hsmall⟩
      have fetched : ∀ a ∈ texts, plan.needWiki ∧ a.Asks IsText :=
        fun a ha => ⟨(htexts a ha).1.1, (htexts a ha).2⟩
      have some_text (hne : texts ≠ []) : plan.needWiki ∧ Outcome.ofIndex? answer = none := by
        obtain ⟨a, ha⟩ := List.exists_mem_of_ne_nil texts hne
        exact (htexts a ha).1
      obtain ⟨lapse', answer', he, hindex⟩ := course_indexFor hi
      cases he
      rcases hindex with ⟨rfl, rfl, habsent⟩ | ⟨hneed, hasIndex, arrival, rfl, rfl⟩
      · exact ⟨.inl rfl, hweb, fetched, fun hne => .inl (habsent (some_text hne).1)⟩
      · refine ⟨.inr ⟨hneed, hasIndex, arrival, rfl⟩, hweb, fetched, fun hne => .inr ?_⟩
        exact ⟨arrival, rfl, Outcome.snippets_of_ofIndex? (some_text hne).2⟩
    · obtain ⟨_, _, he, _⟩ := course_indexFor hi
      cases he

end Knowledge

end Advisor

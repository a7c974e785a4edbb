import Advisor.Proofs.Knowledge.Consulting
import Advisor.Proofs.Knowledge.Merging
import Advisor.Proofs.Text.Normalizing

/-!
What the web is asked for a message, and what is reported of its answers. There are always two queries that
differ: a message and the same with more words, or two that end in different letters.
-/

namespace Advisor.Knowledge.Web

open Dialogue Text

section Queries

variable {message : String}

def opening (message : String) : String :=
  truncate (trim message) maxQueryRunes

def focused (message : String) : List String :=
  let words := keywords (opening message)
  if words.isEmpty then [] else [" ".intercalate (words.take queryKeywords) ++ " " ++ domainHint]

def subject (message : String) : String :=
  let words := keywords (opening message)
  if words.isEmpty then opening message else " ".intercalate words

def candidates (message : String) (intent : Intent) (locale : Locale) : List String :=
  opening message :: focused message ++ [rephrase (subject message) intent locale]

theorem ends_domainHint : Ends domainHint 'g' := by
  decide +kernel

def tails : List String :=
  ["price trend analysis", "анализ динамики цены", "error fix", "ошибка решение", "latest news",
    "последние новости"]

theorem exists_rephrase (intent : Intent) (locale : Locale) :
    ∃ tail, (∀ subject, rephrase subject intent locale = subject ++ " " ++ tail) ∧ tail ∈ tails := by
  cases intent <;> cases locale <;> exact ⟨_, fun _ => rfl, by decide⟩

theorem ends_tail {tail : String} (h : tail ∈ tails) :
    ∃ c ∈ tail.toList, isBlank c = false ∧ Ends tail c ∧ c ≠ 'g' := by
  have hall : tails.all fun tail => tail.toList.any fun c => isBlank c = false ∧ Ends tail c ∧ c ≠ 'g' := by
    decide +kernel
  obtain ⟨c, hc, hends⟩ := List.any_eq_true.1 (List.all_eq_true.1 hall tail h)
  exact ⟨c, hc, of_decide_eq_true hends⟩

theorem not_blank_opening (h : trim message ≠ "") : trim (opening message) ≠ "" := by
  obtain ⟨c, rest, hchars, hc⟩ := exists_of_trim_ne_empty h
  refine trim_ne_empty hc ?_
  rw [opening, truncate, String.toList_ofList, hchars]
  exact List.mem_cons_self

theorem not_blank_of_mem_candidates {intent : Intent} {locale : Locale} {q : String}
    (h : trim message ≠ "") (hq : q ∈ candidates message intent locale) : trim q ≠ "" := by
  rcases List.mem_append.1 hq with hq | hq
  · rcases List.mem_cons.1 hq with rfl | hq
    · exact not_blank_opening h
    · simp only [focused] at hq
      split at hq
      · cases hq
      · rw [List.mem_singleton.1 hq]
        exact trim_ne_empty (c := 'g') (by decide) (by simp [domainHint])
  · obtain ⟨tail, htail, hmem⟩ := exists_rephrase intent locale
    obtain ⟨c, hc, hshown, -⟩ := ends_tail hmem
    rw [List.mem_singleton.1 hq, htail]
    exact trim_ne_empty hshown (by simp [hc])

theorem queries_eq (intent : Intent) (locale : Locale) (h : trim message ≠ "") :
    queries message intent locale = firstBy normalize [] (candidates message intent locale) := by
  have hkept : (candidates message intent locale).filter (fun q => !(trim q).isEmpty) =
      candidates message intent locale := by
    refine List.filter_eq_self.2 fun q hq => ?_
    simpa using not_blank_of_mem_candidates h hq
  have hfew : (firstBy normalize [] (candidates message intent locale)).length ≤ maxQueries := by
    refine (firstBy_sublist _ _ _).length_le.trans ?_
    simp only [candidates, focused, maxQueries]
    split <;> simp
  change (firstBy normalize []
    ((candidates message intent locale).filter fun q => !(trim q).isEmpty)).take maxQueries = _
  rw [hkept, List.take_of_length_le hfew]

theorem exists_different (message : String) (intent : Intent) (locale : Locale) :
    ∃ q ∈ candidates message intent locale, ∃ q' ∈ candidates message intent locale,
      normalize q ≠ normalize q' := by
  obtain ⟨tail, htail, hmem⟩ := exists_rephrase intent locale
  obtain ⟨c, -, -, hends, hg⟩ := ends_tail hmem
  have hlast : rephrase (subject message) intent locale ∈ candidates message intent locale := by
    simp [candidates]
  by_cases hwords : (keywords (opening message)).isEmpty
  · refine ⟨opening message, by simp [candidates], _, hlast, ?_⟩
    rw [htail, subject, if_pos hwords]
    exact hends.normalize_ne _
  · refine ⟨" ".intercalate ((keywords (opening message)).take queryKeywords) ++ " " ++ domainHint,
      by simp [candidates, focused, hwords], _, hlast, fun heq => ?_⟩
    have hfocused := ends_domainHint.getLast?_normalize
      (" ".intercalate ((keywords (opening message)).take queryKeywords))
    rw [heq, htail, hends.getLast?_normalize] at hfocused
    exact hg (Option.some.inj hfocused)

/-- Queries to put for a message: two or three that differ, none of them blank. -/
structure Usable (message : String) (queries : List String) : Prop where
  count : queries.length = 2 ∨ queries.length = 3
  shown : ∀ q ∈ queries, trim q ≠ ""
  distinct : (queries.map normalize).Nodup
  first : queries.head? = some (truncate (trim message) 300)

theorem usable_queries (intent : Intent) (locale : Locale) (h : trim message ≠ "") :
    Usable message (queries message intent locale) := by
  have hsublist := firstBy_sublist normalize [] (candidates message intent locale)
  rw [queries_eq intent locale h]
  constructor
  case count =>
    have hmost : (firstBy normalize [] (candidates message intent locale)).length ≤ 3 := by
      rw [← queries_eq intent locale h]
      exact List.length_take_le _ _
    obtain ⟨q, hq, q', hq', hne⟩ := exists_different message intent locale
    have kept {q : String} (hq : q ∈ candidates message intent locale) :
        ∃ a ∈ firstBy normalize [] (candidates message intent locale), normalize a = normalize q :=
      exists_mem_firstBy hq List.not_mem_nil
    obtain ⟨a, ha, hqa⟩ := kept hq
    obtain ⟨b, hb, hqb⟩ := kept hq'
    have hmany : (firstBy normalize [] (candidates message intent locale)).length ≠ 1 := by
      intro hone
      obtain ⟨only, honly⟩ := List.length_eq_one_iff.1 hone
      rw [honly, List.mem_singleton] at ha hb
      rw [← hqa, ← hqb, ha, hb] at hne
      exact hne rfl
    have hsome := List.length_pos_of_mem ha
    omega
  case shown => exact fun q hq => not_blank_of_mem_candidates h (hsublist.mem hq)
  case distinct => exact (firstBy_distinct _ _).1
  case first =>
    rw [candidates, List.cons_append, firstBy_cons_of_not_mem (by simp)]
    rfl

end Queries

section Report

variable {results : List (Except Failure (List Result))} {locale : Locale} {found : Outcome}

def failures (results : List (Except Failure (List Result))) : Nat :=
  (results.filter (!·.isOk)).length

/-- What is reported of the answers to queries, given in the order of the queries. -/
structure Reports (results : List (Except Failure (List Result))) (locale : Locale) (found : Outcome) :
    Prop where
  merged : found.snippets = merge (results.filterMap Except.toOption).flatten locale
  allFailed : failures results = results.length →
    found.snippets = [] ∧ found.warnings = ["web search unavailable: all queries failed"]
  someFailed : 0 < failures results → failures results < results.length →
    found.warnings = ["web search partial: " ++ toString (failures results) ++ " of " ++
      toString results.length ++ " queries failed" ++ if found.snippets.isEmpty then ", no results" else ""]
  noneFailed : failures results = 0 →
    found.warnings = if found.snippets.isEmpty then ["web search returned no data"] else []

theorem countP_eq_failures (results : List (Except Failure (List Result))) :
    results.countP (·.toOption.isNone) = failures results := by
  rw [failures, ← List.countP_eq_length_filter]
  refine List.countP_congr fun r _ => ?_
  cases r <;> simp [Except.toOption, Except.isOk, Except.toBool]

theorem merge_of_allFailed (h : failures results = results.length) :
    merge (results.filterMap Except.toOption).flatten locale = [] := by
  have hnone : results.filterMap Except.toOption = [] := by
    refine List.filterMap_eq_nil_iff.2 fun r hr => ?_
    have hfailed := List.length_filter_eq_length_iff.1 h r hr
    cases r with
    | ok _ => cases hfailed
    | error _ => rfl
  rw [hnone]
  rfl

theorem reports_ofResults (hne : results ≠ []) : Reports results locale (.ofResults results locale) where
  merged := rfl
  allFailed hall := by
    refine ⟨merge_of_allFailed hall, ?_⟩
    simp only [Outcome.ofResults, countP_eq_failures, warnings, if_pos hall]
  someFailed hsome hless := by
    simp only [Outcome.ofResults, countP_eq_failures, warnings, if_neg hless.ne, if_pos hsome]
  noneFailed hnone := by
    have hpos := List.length_pos_of_ne_nil hne
    simp only [Outcome.ofResults, countP_eq_failures, warnings, hnone, if_neg hpos.ne, lt_irrefl, if_false]

theorem Reports.eq {other : Outcome} (h : Reports results locale found) (h' : Reports results locale other) :
    found = other := by
  obtain ⟨snippets, warnings⟩ := found
  obtain ⟨snippets', warnings'⟩ := other
  obtain rfl : snippets = snippets' := h.merged.trans h'.merged.symm
  have hwarnings : warnings = warnings' := by
    rcases Nat.eq_zero_or_pos (failures results) with hnone | hsome
    · exact (h.noneFailed hnone).trans (h'.noneFailed hnone).symm
    rcases (List.length_filter_le (!·.isOk) results).eq_or_lt with hall | hless
    · exact (h.allFailed hall).2.trans (h'.allFailed hall).2.symm
    · exact (h.someFailed hsome hless).trans (h'.someFailed hsome hless).symm
  rw [hwarnings]

end Report

section Search

variable {locale : Locale} {limitMs : Nat} {acts : List Act}

def searches (queries : List String) (locale : Locale) (arrivals : List (Arrival (List Result))) :
    List Act :=
  List.zipWith (fun query arrival => .asked (.search query locale) arrival) queries arrivals

/-- The answers that count: one that comes too late is a failure. -/
def timely (limitMs : Nat) (arrivals : List (Arrival (List Result))) :
    List (Except Failure (List Result)) :=
  arrivals.map fun arrival => (arrival.limited limitMs).result

theorem course_searches_iff (limitMs : Nat) {queries : List String}
    {r : Option (List (Arrival (List Result)))} :
    Course (queries.mapM fun query => do
      let arrival ← put (.search query locale)
      return arrival.limited limitMs) acts r ↔
    ∃ arrivals, arrivals.length = queries.length ∧ acts = searches queries locale arrivals ∧
      r = some (arrivals.map (Arrival.limited limitMs)) := by
  induction queries generalizing acts r with
  | nil =>
      constructor
      · intro h
        obtain ⟨rfl, rfl⟩ := course_pure h
        exact ⟨[], rfl, rfl, rfl⟩
      · rintro ⟨arrivals, hlength, rfl, rfl⟩
        obtain rfl := List.length_eq_zero_iff.1 hlength
        exact .done []
  | cons query rest ih =>
      rw [List.mapM_cons]
      change Course (.ask (.search query locale) fun arrival => Dialogue.bind _ fun others =>
        .done (arrival.limited limitMs :: others)) acts r ↔ _
      constructor
      · intro h
        cases h with
        | ask arrival h =>
          rcases course_bind h with ⟨others, before, after, rfl, hothers, hdone⟩ | ⟨rfl, hothers⟩
          · obtain ⟨arrivals, hlength, rfl, hmade⟩ := ih.1 hothers
            obtain ⟨rfl, rfl⟩ := course_pure hdone
            cases hmade
            exact ⟨arrival :: arrivals, by simp [hlength], by simp [searches], rfl⟩
          · obtain ⟨_, _, _, hmade⟩ := ih.1 hothers
            cases hmade
      · rintro ⟨arrivals, hlength, rfl, rfl⟩
        obtain ⟨arrival, others, rfl⟩ := List.exists_cons_of_length_eq_add_one hlength
        have hothers := ih.2 ⟨others, by simpa using hlength, rfl, rfl⟩
        have hall := hothers.bind (f := fun others => .done (arrival.limited limitMs :: others)) (.done _)
        rw [List.append_nil] at hall
        exact .ask (q := .search query locale) arrival hall

variable {message : String} {intent : Intent}

theorem course_putWeb_iff (limitMs : Nat) {made : Option (Lapse × Outcome)} :
    Course (putWeb true limitMs message intent locale) acts made ↔
      ∃ arrivals, arrivals.length = (queries message intent locale).length ∧
        acts = searches (queries message intent locale) locale arrivals ∧
        made = some (latest (arrivals.map fun arrival => (arrival.limited limitMs).lapse),
          .ofResults (timely limitMs arrivals) locale) := by
  rw [putWeb, if_pos rfl]
  constructor
  · intro h
    rcases course_bind h with ⟨limited, asking, rest, rfl, hasking, hdone⟩ | ⟨rfl, hasking⟩
    · obtain ⟨arrivals, hlength, hasked, hlimited⟩ := (course_searches_iff limitMs).1 hasking
      obtain ⟨rfl, rfl⟩ := course_pure hdone
      cases hlimited
      exact ⟨arrivals, hlength, by rw [List.append_nil, hasked], by simp [timely, Function.comp_def]⟩
    · obtain ⟨_, _, _, hmade⟩ := (course_searches_iff limitMs).1 hasking
      cases hmade
  · rintro ⟨arrivals, hlength, hacts, rfl⟩
    have hasking := (course_searches_iff limitMs).2 ⟨arrivals, hlength, hacts, rfl⟩
    have hput := hasking.bind (f := fun arrivals => Dialogue.done
      (latest (arrivals.map (·.lapse)), Outcome.ofResults (arrivals.map (·.result)) locale)) (.done _)
    rw [List.append_nil, List.map_map, List.map_map] at hput
    exact hput

theorem course_webSearch_iff {found : Outcome} :
    Course (webSearch true limitMs message intent locale) acts (some found) ↔
      ∃ arrivals, arrivals.length = (queries message intent locale).length ∧
        acts = searches (queries message intent locale) locale arrivals ∧
        found = .ofResults (timely limitMs arrivals) locale := by
  rw [webSearch]
  constructor
  · intro h
    obtain ⟨made, before, after, rfl, hput, hrest⟩ := (course_bind h).of_some
    obtain ⟨_, waiting, rest, rfl, hpause, hdone⟩ := (course_bind hrest).of_some
    obtain ⟨rfl, -⟩ := course_pause hpause
    obtain ⟨rfl, hfound⟩ := course_pure hdone
    obtain ⟨arrivals, hlength, hasked, hmade⟩ := (course_putWeb_iff limitMs).1 hput
    cases hmade
    cases hfound
    exact ⟨arrivals, hlength, by simpa using hasked, rfl⟩
  · rintro ⟨arrivals, hlength, hacts, rfl⟩
    have hput := (course_putWeb_iff limitMs).2 ⟨arrivals, hlength, hacts, rfl⟩
    have hall := hput.bind (f := fun answer => Dialogue.wait answer.1 (.done answer.2)) (.wait (.done _))
    rw [List.append_nil] at hall
    exact hall

theorem asks_webSearch (limitMs : Nat) (message : String) (intent : Intent) (locale : Locale) :
    (webSearch true limitMs message intent locale).Asks (Question.About .web) :=
  (asks_putWeb true limitMs message intent locale).bind fun _ => (asks_pause _).bind fun _ => asks_pure _

/-- A message always has queries that can be put, and whatever comes of them is what is reported. -/
theorem web_search_reported (hmessage : trim message ≠ "") (intent : Intent) (locale : Locale)
    (limitMs : Nat) :
    Usable message (queries message intent locale) ∧
      (∀ acts found, Course (webSearch true limitMs message intent locale) acts (some found) ↔
        ∃ arrivals, arrivals.length = (queries message intent locale).length ∧
          acts = searches (queries message intent locale) locale arrivals ∧
          Reports (timely limitMs arrivals) locale found) ∧
      ∀ {σ : Type} (w : World σ), w.Patient → ∀ s, ∃ acts found t,
        (webSearch true limitMs message intent locale).run w s = (some found, t) ∧
          t.acts = s.acts ++ acts ∧
          Course (webSearch true limitMs message intent locale) acts (some found) := by
  have husable := usable_queries intent locale hmessage
  refine ⟨husable, fun acts found => ?_, fun w hpatient s => ?_⟩
  · rw [course_webSearch_iff]
    refine exists_congr fun arrivals => and_congr_right fun hlength => and_congr_right fun _ => ?_
    have hne : timely limitMs arrivals ≠ [] := by
      intro hnil
      have hcount := husable.count
      rw [← hlength, List.map_eq_nil_iff.1 hnil] at hcount
      simp at hcount
    constructor
    · rintro rfl
      exact reports_ofResults hne
    · exact fun h => h.eq (reports_ofResults hne)
  · obtain ⟨found, t, hrun⟩ := hpatient.exists_run (asks_webSearch limitMs message intent locale) s
    obtain ⟨acts, hacts, hcourse, -⟩ := run_course w (webSearch true limitMs message intent locale) s
    rw [hrun] at hacts hcourse
    exact ⟨acts, found, t, hrun, hacts, hcourse⟩

theorem greeting_half_answered :
    trim "hi" ≠ "" ∧ Usable "hi" (queries "hi" .general .en) ∧
      Course (webSearch true 10000 "hi" .general .en)
        (searches (queries "hi" .general .en) .en [⟨.zero, .ok []⟩, ⟨⟨20000, false⟩, .ok []⟩])
        (some ⟨[], ["web search partial: 1 of 2 queries failed, no results"]⟩) := by
  have hmessage : trim "hi" ≠ "" := by decide
  obtain ⟨husable, hcourse, -⟩ := web_search_reported hmessage .general .en 10000
  have htwo : 2 = (queries "hi" .general .en).length := by decide +kernel
  exact ⟨hmessage, husable, (hcourse _ _).2
    ⟨[⟨.zero, .ok []⟩, ⟨⟨20000, false⟩, .ok []⟩], htwo, rfl, reports_ofResults (by simp [timely])⟩⟩

end Search

end Advisor.Knowledge.Web

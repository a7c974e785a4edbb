import Advisor.Dialogue.Basic
import Advisor.Knowledge.Page
import Advisor.Plan.Basic
import Advisor.Prompt.User

namespace Advisor.Knowledge

/-! What a turn is told about its subject: documentation and the web, looked up at the same time. Neither
can fail the turn; what goes wrong becomes a warning. -/

section Documentation

def Outcome.ofIndex? : Option (Except Failure Outcome) → Option Outcome
  | some (.ok found) =>
      if found.snippets.isEmpty then none
      else some {
        found with
        snippets := (found.snippets.take topPages).map fun s =>
          { s with content := Text.clip s.content maxSnippetRunes } }
  | _ => none

def indexWarnings : Option (Except Failure Outcome) → List String
  | none => []
  | some (.ok found) => found.warnings
  | some (.error e) => ["documentation index unavailable: " ++ e.message]

def pagesOf (texts : List (String × Source × Option String)) : List Page :=
  texts.filterMap fun (slug, source, text?) => text?.map fun text => ⟨slug, source, text⟩

def Outcome.ofPages (pages : List Page) (repo : String) (locale : Locale) (query : String)
    (warnings : List String) : Outcome :=
  if pages.isEmpty then ⟨[], warnings ++ ["documentation unavailable"]⟩
  else ⟨rankPages pages repo locale query, warnings⟩

def overviewText : Except Failure (Option String) → Except Failure String
  | .ok (some text) => .ok text
  | .ok none => .error (.documentation "no local overview")
  | .error e => .error e

def Entry.ofFetched : Except Failure String → Entry
  | .ok text => .ofText text
  | .error _ => .failed

/-- A page on its way: what will be remembered of it, unless it was remembered already. -/
structure Underway where
  slug : String
  source : Source
  fetched : Bool
  entry : Entry

def underway (repo slug : String) (source : Source) (fetch : Dialogue (Arrival String)) :
    Dialogue (Lapse × Underway) := do
  match ← Dialogue.remembered (.page (pageKey repo slug)) with
  | some entry => return (.zero, ⟨slug, source, false, entry⟩)
  | none =>
      let arrival ← fetch
      return (arrival.lapse, ⟨slug, source, true, .ofFetched arrival.result⟩)

def fetchOverview : Dialogue (Arrival String) := do
  let arrival ← Dialogue.put .overview
  return ⟨arrival.lapse, overviewText arrival.result⟩

def allUnderway (repo : String) : Dialogue (List (Lapse × Underway)) := do
  let wiki ← wikiPages.mapM fun slug => underway repo slug .wiki (Dialogue.put (.page repo slug))
  let overview ← underway repo overviewPage .readme fetchOverview
  return wiki ++ [overview]

def rememberPage (repo : String) (u : Underway) : Dialogue Unit :=
  if u.fetched then Dialogue.remember (.page (pageKey repo u.slug)) u.entry else return ()

def settlePages (repo : String) (pages : List (Lapse × Underway)) : Dialogue Nat := do
  let (elapsed, _) ← Dialogue.takeEach (fun _ u => rememberPage repo u) 0 ()
    (Dialogue.inArrivalOrder pages)
  return elapsed

def readPages (pages : List (Lapse × Underway)) : List Page :=
  pagesOf (pages.map fun (_, u) => (u.slug, u.source, u.entry.text?))

def putIndex (hasIndex : Bool) (repo : String) (locale : Locale) (query : String) (intent : Intent) :
    Dialogue (Lapse × Option (Except Failure Outcome)) :=
  if hasIndex then do
    let arrival ← Dialogue.put (.index repo locale query intent topPages)
    return (arrival.lapse, some arrival.result)
  else return (.zero, none)

def consultPages (repo : String) (locale : Locale) (query : String)
    (answer : Option (Except Failure Outcome)) : Dialogue (Nat × Outcome) := do
  match Outcome.ofIndex? answer with
  | some found => return (0, found)
  | none =>
      let pages ← allUnderway repo
      let elapsed ← settlePages repo pages
      return (elapsed, .ofPages (readPages pages) repo locale query (indexWarnings answer))

def documentation (hasIndex : Bool) (repo : String) (locale : Locale) (query : String)
    (intent : Intent) : Dialogue Outcome := do
  let (lapse, answer) ← putIndex hasIndex repo locale query intent
  Dialogue.pause lapse
  let (_, found) ← consultPages repo locale query answer
  return found

end Documentation

section Web

/-- What the results of all queries come to; there are no more failures than queries. -/
def Web.warnings (failed asked : Nat) (nothing : Bool) : List String :=
  if failed = asked then ["web search unavailable: all queries failed"]
  else if 0 < failed then
    ["web search partial: " ++ toString failed ++ " of " ++ toString asked ++ " queries failed" ++
      if nothing then ", no results" else ""]
  else if nothing then ["web search returned no data"]
  else []

def Web.unavailable : Outcome :=
  ⟨[], ["web search unavailable: no search backend configured"]⟩

def Outcome.ofResults (results : List (Except Failure (List Web.Result))) (locale : Locale) : Outcome :=
  let snippets := Web.merge (results.filterMap Except.toOption).flatten locale
  let failed := results.countP fun r => r.toOption.isNone
  ⟨snippets, Web.warnings failed results.length snippets.isEmpty⟩

/-- Puts all queries at once; each has its own limit. -/
def putSearches (limitMs : Nat) (message : String) (intent : Intent) (locale : Locale) :
    Dialogue (List (Arrival (List Web.Result))) :=
  (Web.queries message intent locale).mapM fun query => do
    let arrival ← Dialogue.put (.search query locale)
    return arrival.limited limitMs

def latest (lapses : List Lapse) : Lapse :=
  ⟨(lapses.map (·.ms)).foldl max 0, lapses.any (·.clientLeaves)⟩

def putWeb (hasSearch : Bool) (limitMs : Nat) (message : String) (intent : Intent) (locale : Locale) :
    Dialogue (Lapse × Outcome) :=
  if hasSearch then do
    let arrivals ← putSearches limitMs message intent locale
    return (latest (arrivals.map (·.lapse)), .ofResults (arrivals.map (·.result)) locale)
  else return (.zero, Web.unavailable)

def webSearch (hasSearch : Bool) (limitMs : Nat) (message : String) (intent : Intent)
    (locale : Locale) : Dialogue Outcome := do
  let (lapse, found) ← putWeb hasSearch limitMs message intent locale
  Dialogue.pause lapse
  return found

end Web

structure Library where
  hasIndex : Bool
  hasSearch : Bool
  searchLimitMs : Nat
  deriving DecidableEq, Repr

section Findings

variable (library : Library) (plan : Plan) (turn : Turn)

def indexFor : Dialogue (Lapse × Option (Except Failure Outcome)) :=
  if plan.needWiki then
    putIndex library.hasIndex turn.wikiRepo turn.locale turn.userMessage plan.intent
  else return (.zero, none)

def webFor : Dialogue (Lapse × Outcome) :=
  if plan.needWeb then
    putWeb library.hasSearch library.searchLimitMs turn.userMessage plan.intent turn.locale
  else return (.zero, default)

def documentationFor (answer : Option (Except Failure Outcome)) : Dialogue (Nat × Outcome) :=
  if plan.needWiki then consultPages turn.wikiRepo turn.locale turn.userMessage answer
  else return (0, default)

def findings : Dialogue Prompt.Findings := do
  if plan.intent = .smalltalk then return default
  let (indexLapse, answer) ← indexFor library plan turn
  let (webLapse, web) ← webFor library plan turn
  Dialogue.pause indexLapse
  let (elapsed, wiki) ← documentationFor plan turn answer
  Dialogue.pause (webLapse.after (indexLapse.ms + elapsed))
  return ⟨wiki.snippets, web.snippets, wiki.warnings ++ web.warnings⟩

end Findings

end Advisor.Knowledge

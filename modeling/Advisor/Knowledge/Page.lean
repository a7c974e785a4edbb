import Advisor.Knowledge.Keyword
import Advisor.Knowledge.Markdown
import Advisor.Knowledge.Snippet
import Advisor.Locale
import Advisor.Number.Fixed

namespace Advisor.Knowledge

def topPages : Nat := 4

def wikiPages : List String :=
  ["Home", "Getting-Started", "Scan-Settings", "Filters", "Decision-Matrix", "Risk-Management",
    "Account-Connection", "Troubleshooting", "FAQ"]

def overviewPage : String := "README"

structure Page where
  slug : String
  source : Source
  content : String
  deriving DecidableEq, Repr

/-- Under this key a page is remembered: its repository in any letter case, without white space around
either. -/
def pageKey (repo page : String) : String :=
  Text.lower (Text.trim repo) ++ "::" ++ Text.trim page

def keywordHits (text : String) (keywords : List String) : Nat :=
  keywords.countP (Text.contains (Text.lower text))

def Chapter.rank (keywords : List String) (c : Chapter) : Nat × Nat :=
  (keywordHits (c.heading ++ "\n" ++ c.body) keywords, keywordHits c.heading keywords)

def rankLE (a b : Nat × Nat) : Bool :=
  a.1 < b.1 || (a.1 == b.1 && a.2 ≤ b.2)

/-- The last of the chapters that rank highest. -/
def bestChapter? (keywords : List String) (chapters : List Chapter) : Option Chapter :=
  chapters.foldl
    (fun best c =>
      match best with
      | none => some c
      | some b => if rankLE (b.rank keywords) (c.rank keywords) then some c else some b)
    none

namespace Page

def url (repo : String) (page : Page) : String :=
  let base := "https://github.com/" ++ Text.trim repo
  match page.source with
  | .readme => base ++ "#readme"
  | _ => base ++ "/wiki/" ++ page.slug

def excerpt (keywords : List String) (page : Page) : Nat × String × String :=
  match bestChapter? keywords (Chapter.ofMarkdown page.content) with
  | some c =>
      let hits := (c.rank keywords).1
      if 0 < hits then (hits, c.heading, c.body) else (0, "", page.content)
  | none => (0, "", page.content)

def snippet (repo : String) (locale : Locale) (keywords : List String) (page : Page) : Snippet :=
  let (hits, heading, text) := page.excerpt keywords
  { source := page.source
    title := Text.replaceChar '-' ' ' page.slug
    page := page.slug
    chapter := heading
    locale := locale.name
    url := page.url repo
    content := Text.clip text maxSnippetRunes
    score := Float.ofNat hits }

end Page

/-- The pages that match, best first and ties in page order; when none does, the pages as they come. -/
def rankPages (pages : List Page) (repo : String) (locale : Locale) (query : String) : List Snippet :=
  let found := pages.map (Page.snippet repo locale (keywords query))
  let ranked :=
    if found.any (·.score > 0) then
      (found.mergeSort fun a b => Number.orderKey b.score ≤ Number.orderKey a.score).filter (·.score > 0)
    else found
  ranked.take topPages

end Advisor.Knowledge

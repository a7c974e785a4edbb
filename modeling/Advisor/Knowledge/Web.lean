import Advisor.Intent
import Advisor.Knowledge.Keyword
import Advisor.Knowledge.Snippet
import Advisor.Locale

namespace Advisor.Knowledge.Web

def maxSnippets : Nat := 4

def maxQueries : Nat := 3

def queryKeywords : Nat := 8

def maxQueryRunes : Nat := 300

def prefixRunes : Nat := 80

def domainHint : String := "skin marketplace trading"

structure Result where
  title : String
  url : String
  content : String
  deriving DecidableEq, Repr, Inhabited

open Json.Decoder

def Result.decoder : Json.Decoder Result :=
  record
    [ defaulted "title" string fun v r => { r with title := v },
      defaulted "url" string fun v r => { r with url := v },
      defaulted "content" string fun v r => { r with content := v }]
    ⟨"", "", ""⟩

def Result.toJson (r : Result) : Json :=
  .obj [("title", .str r.title), ("url", .str r.url), ("content", .str r.content)]

def rephrase (subject : String) (intent : Intent) (locale : Locale) : String :=
  subject ++ " " ++
    match intent with
    | .tradingAnalysis => locale.pick "price trend analysis" "анализ динамики цены"
    | .debugSupport => locale.pick "error fix" "ошибка решение"
    | _ => locale.pick "latest news" "последние новости"

def firstBy (key : α → String) (seen : List String) : List α → List α
  | [] => []
  | a :: as =>
      if seen.contains (key a) then firstBy key seen as else a :: firstBy key (key a :: seen) as

/-- The queries to put for a message, best first: its own words, its keywords in the domain, and a
rephrasing. Queries that differ in case and spacing alone are one. -/
def queries (message : String) (intent : Intent) (locale : Locale) : List String :=
  let raw := Text.truncate (Text.trim message) maxQueryRunes
  let words := keywords raw
  let focused :=
    if words.isEmpty then [] else [" ".intercalate (words.take queryKeywords) ++ " " ++ domainHint]
  let subject := if words.isEmpty then raw else " ".intercalate words
  let candidates := raw :: focused ++ [rephrase subject intent locale]
  (firstBy Text.normalize [] (candidates.filter fun q => !(Text.trim q).isEmpty)).take maxQueries

/-- Results with one key are one: by their address, or without one by their title and the beginning of
their content. -/
def Result.key (r : Result) : String :=
  let url := Text.trim r.url
  if url.isEmpty then
    "text:" ++ Text.normalize r.title ++ "|" ++ Text.truncate (Text.normalize r.content) prefixRunes
  else "url:" ++ .ofList (Text.dropEndWhile (· == '/') url.toList)

def Result.isBlank (r : Result) : Bool :=
  (Text.trim r.title).isEmpty && (Text.trim r.content).isEmpty

def Result.snippet (locale : Locale) (score : Nat) (r : Result) : Snippet where
  source := .web
  title := Text.trim r.title
  page := ""
  chapter := ""
  locale := locale.name
  url := Text.trim r.url
  content := Text.clip r.content maxSnippetRunes
  score := Float.ofNat score

/-- The first results of different keys that show something, their scores falling from the number
kept. -/
def merge (results : List Result) (locale : Locale) : List Snippet :=
  let kept := ((firstBy Result.key [] results).filter (!·.isBlank)).take maxSnippets
  kept.zipIdx.map fun (r, i) => r.snippet locale (maxSnippets - i)

end Advisor.Knowledge.Web

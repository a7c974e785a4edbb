import Advisor.Json.Decoder

namespace Advisor.Knowledge

inductive Source
  | wiki
  | readme
  | web
  deriving DecidableEq, Repr, Inhabited

def Source.name : Source → String
  | wiki => "WIKI"
  | readme => "README"
  | web => "WEB"

def Source.ofName? : String → Option Source
  | "WIKI" => some wiki
  | "README" => some readme
  | "WEB" => some web
  | _ => none

structure Snippet where
  source : Source
  title : String
  page : String
  chapter : String
  locale : String
  url : String
  content : String
  score : Float
  deriving DecidableEq, Inhabited

structure Outcome where
  snippets : List Snippet
  warnings : List String
  deriving DecidableEq, Inhabited

def maxSnippetRunes : Nat := 1800

namespace Snippet

def toJson (s : Snippet) : Json :=
  .obj [
    ("source_label", .str s.source.name), ("title", .str s.title), ("page", .str s.page),
    ("section", .str s.chapter), ("locale", .str s.locale), ("url", .str s.url),
    ("content", .str s.content), ("score", .ofFloat s.score)]

open Json.Decoder

def decoder : Json.Decoder Snippet :=
  record
    [ field "source_label" (named Source.ofName?) fun v s => { s with source := v },
      field "title" string fun v s => { s with title := v },
      defaulted "page" string fun v s => { s with page := v },
      defaulted "section" string fun v s => { s with chapter := v },
      defaulted "locale" string fun v s => { s with locale := v },
      defaulted "url" string fun v s => { s with url := v },
      field "content" string fun v s => { s with content := v },
      defaulted "score" double fun v s => { s with score := v }]
    ⟨.wiki, "", "", "", "", "", "", 0⟩

end Snippet

end Advisor.Knowledge

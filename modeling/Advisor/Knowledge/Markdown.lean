import Advisor.Text.Runes

namespace Advisor.Knowledge

structure Chapter where
  heading : String
  body : String
  deriving DecidableEq, Repr

namespace Chapter

def isHeading (line : String) : Bool :=
  (line.toList.dropWhile Text.isBlank).head? == some '#'

def headingText (line : String) : String :=
  Text.trim (.ofList (line.toList.dropWhile fun c => c == '#' || c == ' '))

def close (heading : String) (body : List String) : List Chapter :=
  let text := Text.trim (String.join (body.map (· ++ "\n")))
  if text.isEmpty then [] else [⟨heading, text⟩]

/-- `body` holds the lines since the heading, newest first. -/
def split (heading : String) (body : List String) : List String → List Chapter
  | [] => close heading body.reverse
  | line :: rest =>
      if isHeading line then close heading body.reverse ++ split (headingText line) [] rest
      else split heading (line :: body) rest

/-- The chapters of a page. What comes before the first heading has an empty one. -/
def ofMarkdown (markdown : String) : List Chapter :=
  split "" [] (Text.lines markdown)

end Chapter

end Advisor.Knowledge

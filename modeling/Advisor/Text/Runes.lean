import Advisor.Text.Blank
import Advisor.Text.Case

namespace Advisor.Text

def runeCount (s : String) : Nat :=
  s.toList.length

def truncate (s : String) (limit : Nat) : String :=
  .ofList (s.toList.take limit)

/-- The trimmed text, its cut marked by an ellipsis that counts as one of the `limit` runes. -/
def clip (s : String) (limit : Nat) : String :=
  let t := trim s
  if runeCount t ≤ limit then t else (truncate t (limit - 1)).push '…'

def normalize (s : String) : String :=
  lower (" ".intercalate (words s))

def occursIn (needle : List Char) : List Char → Bool
  | [] => needle.isEmpty
  | c :: cs => needle.isPrefixOf (c :: cs) || occursIn needle cs

def contains (s needle : String) : Bool :=
  occursIn needle.toList s.toList

def containsAny (s : String) (needles : List String) : Bool :=
  needles.any (contains s)

def afterPrefix? (start s : List Char) : Option (List Char) :=
  if start.isPrefixOf s then some (s.drop start.length) else none

/-- Lines end at a line feed, with or without a carriage return before it. A last line without a
line feed is kept as it is, unless empty. -/
def lines (s : String) : List String :=
  let parts := s.toList.splitOnP (· == '\n')
  let ended := parts.dropLast.map fun line =>
    if line.getLast? = some '\r' then line.dropLast else line
  let last := parts.getLast?.getD []
  (if last.isEmpty then ended else ended ++ [last]).map .ofList

def replaceChar (old new : Char) (s : String) : String :=
  .ofList (s.toList.map fun c => if c = old then new else c)

end Advisor.Text

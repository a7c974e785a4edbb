import Advisor.Text.Alphanumeric
import Advisor.Text.Runes

namespace Advisor.Knowledge

def maxKeywords : Nat := 12

def minKeywordRunes : Nat := 3

def englishStopWords : List String :=
  ["the", "and", "for", "are", "but", "not", "you", "your", "all", "any", "can", "had", "has",
    "have", "her", "was", "one", "our", "out", "get", "how", "its", "may", "new", "now", "see",
    "who", "why", "what", "when", "where", "which", "with", "this", "that", "these", "those",
    "from", "into", "about", "there", "their", "them", "they", "then", "than", "does", "did",
    "doing", "would", "could", "should", "will", "just", "some", "more", "most", "very", "also",
    "please", "tell", "show", "explain", "give", "want", "need", "like", "make", "much", "many",
    "been", "being", "only", "over", "such", "here", "each", "other"]

def russianStopWords : List String :=
  ["как", "что", "это", "для", "или", "так", "все", "всё", "его", "она", "они", "оно", "мне",
    "меня", "мой", "моя", "мои", "наш", "ваш", "при", "без", "над", "под", "про", "где", "когда",
    "почему", "зачем", "какой", "какая", "какие", "каких", "если", "тоже", "также", "чтобы",
    "есть", "был", "была", "были", "быть", "уже", "еще", "ещё", "только", "очень", "можно",
    "нужно", "надо", "пожалуйста", "покажи", "расскажи", "объясни", "там", "тут", "этот", "эта",
    "эти", "того", "чем", "чего"]

def isStopWord (word : String) : Bool :=
  englishStopWords.contains word || russianStopWords.contains word

def isDash (c : Char) : Bool :=
  c == '-' || c == '_'

def isKeyword (word : String) : Bool :=
  minKeywordRunes ≤ Text.runeCount word && !isStopWord word

def plainWords (text : String) : List String :=
  ((Text.lower text).toList.splitOnP fun c => !(Text.isAlphanumeric c || isDash c)).map fun w =>
    .ofList (Text.strip isDash w)

def keywords (text : String) : List String :=
  (((plainWords text).filter isKeyword).eraseDups).take maxKeywords

end Advisor.Knowledge

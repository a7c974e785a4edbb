import Advisor.Text.Alphanumeric
import Advisor.Text.Runes

namespace Advisor

/-- Words that match a whole token, and stems that match anywhere: a short word such as `hi` must not
be found inside `this`. -/
structure Vocabulary where
  words : List String
  stems : List String

namespace Vocabulary

def tokens (text : String) : List String :=
  (Text.pieces (fun c => !Text.isAlphanumeric c && c != '\'') text.toList).map .ofList

def occursIn (v : Vocabulary) (text : String) : Bool :=
  let ts := tokens text
  v.words.any ts.contains || Text.containsAny text v.stems

def debug : Vocabulary where
  words :=
    ["bug", "bugs", "crash", "crashed", "panic", "exception", "traceback", "broken"]
  stems :=
    ["error", "stack trace", "stacktrace", "doesn't work", "does not work", "not working",
      "freezes", "ошибк", "баг", "сбой", "падает", "вылет", "не работает", "зависа", "исключени",
      "трассировк"]

def tradingStructured : Vocabulary where
  words :=
    ["roi", "filter", "filters", "parameter", "parameters", "spread", "risk", "risks"]
  stems :=
    ["decision matrix", "min profit", "min_profit", "max price", "min price", "min volume",
      "profit threshold", "composite score", "risk score", "risk level", "risk/reward",
      "stop loss", "stop-loss", "drawdown", "liquidity", "volatility", "матриц", "фильтр",
      "параметр", "спред", "риск", "ликвидн", "волатильн", "просадк"]

def productHelp : Vocabulary where
  words :=
    ["docs", "wiki", "readme", "roadmap", "feature", "features", "tutorial", "guide"]
  stems :=
    ["documentation", "how to use", "how do i", "how can i", "install", "set up", "setup",
      "документац", "вики", "инструкц", "функци", "как использовать", "как настроить", "дорожн",
      "возможност", "установ"]

def webResearch : Vocabulary where
  words :=
    ["google", "news", "latest", "recent", "internet", "online"]
  stems :=
    ["search the web", "web search", "look up", "what's new", "update on", "новост", "последн",
      "свежи", "в интернете", "в сети", "поищи", "загугли"]

def generalTrading : Vocabulary where
  words :=
    ["trade", "trades", "trading", "scan", "scanner", "margin", "order", "orders", "buy",
      "sell", "profit", "profitable", "price", "prices", "market", "flip", "items"]
  stems :=
    ["сделк", "скан", "марж", "ордер", "заявк", "купить", "продать", "прибыл", "цен", "рынок",
      "рынк", "торг", "флип"]

def greetings : Vocabulary where
  words :=
    ["hi", "hello", "hey", "yo", "thanks", "thx", "привет", "здравствуй", "здравствуйте",
      "спасибо", "хай", "салют"]
  stems :=
    ["good morning", "good evening", "good afternoon", "thank you", "how are you",
      "добрый день", "добрый вечер", "доброе утро", "как дела"]

def followUp : Vocabulary where
  words :=
    ["why", "explain", "next", "more", "почему", "зачем", "объясни", "поясни", "дальше",
      "подробнее"]
  stems :=
    ["what next", "and then", "what about", "tell me more", "что дальше", "а если"]

def advice : Vocabulary where
  words :=
    ["buy", "sell", "trade", "trades", "profit"]
  stems :=
    ["recommend", "risk", "рекоменд", "риск", "сделк", "купи", "прода", "прибыл"]

end Vocabulary

end Advisor

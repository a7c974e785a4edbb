import Advisor.Text.Runes

namespace Advisor

inductive Locale
  | en
  | ru
  deriving DecidableEq, Repr, Inhabited

namespace Locale

def name : Locale → String
  | en => "en"
  | ru => "ru"

def ofName? : String → Option Locale
  | "en" => some en
  | "ru" => some ru
  | _ => none

/-- Whatever begins like Russian is Russian, and all else is English. -/
def parse (raw : String) : Locale :=
  if "ru".toList.isPrefixOf (Text.lower (Text.trim raw)).toList then ru else en

def pick (locale : Locale) (english russian : String) : String :=
  match locale with
  | en => english
  | ru => russian

end Locale

end Advisor

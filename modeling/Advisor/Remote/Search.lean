import Advisor.Config
import Advisor.Failure
import Advisor.Knowledge.Web
import Advisor.Remote.Exchange

namespace Advisor.Remote.Search

/-! A search engine behind a web service. -/

open Advisor.Knowledge

def request? (baseUrl query : String) (locale : Locale) : Option Request :=
  Request.get? (Config.withoutEndSlashes baseUrl ++ "/search")
    [("q", query), ("format", "json"), ("language", locale.name), ("safesearch", "1")] none

section Decoding

open Json.Decoder

def decoder : Json.Decoder (List Web.Result) :=
  record [defaulted "results" (list Web.Result.decoder) fun v _ => v] []

end Decoding

def results (e : Exchange) : Except Failure (List Web.Result) := do
  match e.head with
  | .error _ => throw (.webSearch "request failed: broken off")
  | .ok (status, body, ending) =>
      match Exchange.textOf body ending with
      | .error _ => throw (.webSearch "failed to read body: broken off")
      | .ok text =>
          if Exchange.isSuccess status then
            match Json.Decoder.ofText decoder text with
            | .ok found => return found
            | .error _ => throw (.webSearch "malformed results: mistyped")
          else
            throw (.webSearch ("search returned " ++ statusText status ++ ": " ++ clipBody text))

end Advisor.Remote.Search

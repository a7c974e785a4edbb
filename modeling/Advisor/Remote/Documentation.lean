import Advisor.Config
import Advisor.Failure
import Advisor.Intent
import Advisor.Knowledge.Snippet
import Advisor.Locale
import Advisor.Remote.Exchange

namespace Advisor.Remote.Documentation

/-! Documentation: an index behind a web service, the pages of a wiki, and an overview in a file. -/

open Advisor.Knowledge

def indexRequest? (baseUrl repo : String) (locale : Locale) (query : String) (intent : Intent)
    (k : Nat) : Option Request :=
  Request.post? (Config.withoutEndSlashes baseUrl ++ "/retrieve") none
    (.obj [
      ("repo", .str repo), ("locale", .str locale.name), ("query", .str query),
      ("intent", .str intent.name), ("k", .ofNat k)])

section Decoding

open Json.Decoder

def outcomeDecoder : Json.Decoder Outcome :=
  record
    [ defaulted "snippets" (list Snippet.decoder) fun v o => { o with snippets := v },
      defaulted "warnings" (list string) fun v o => { o with warnings := v }]
    ⟨[], []⟩

end Decoding

def index (e : Exchange) : Except Failure Outcome := do
  let broken := Failure.documentation "semantic index: broken off"
  match e.head with
  | .error _ => throw broken
  | .ok (status, body, ending) =>
      match Exchange.textOf body ending with
      | .error _ => throw broken
      | .ok text =>
          if Exchange.isSuccess status then
            match Json.Decoder.ofText outcomeDecoder text with
            | .ok found => return found
            | .error _ => throw (.serialization "mistyped")
          else
            throw (.documentation
              ("semantic index returned " ++ statusText status ++ ": " ++ clipBody text))

def pageRequest? (rawBase repo slug : String) : Option Request :=
  Request.get? (Config.withoutEndSlashes rawBase ++ "/" ++ Text.trim repo ++ "/" ++ slug ++ ".md") [] none

def unreachable (slug : String) : Failure :=
  .documentation (slug ++ ": broken off")

def page (slug : String) (e : Exchange) : Except Failure String := do
  match e.head with
  | .error _ => throw (unreachable slug)
  | .ok (status, body, ending) =>
      if Exchange.isSuccess status then
        match Exchange.textOf body ending with
        | .ok text => return text
        | .error _ => throw (unreachable slug)
      else throw (.documentation (slug ++ " returned " ++ statusText status))

def overview (file : Option (List UInt8)) : Except Failure (Option String) :=
  match file with
  | none => .error (.io "No such file or directory (os error 2)")
  | some bytes =>
      match Text.Utf8.decode? bytes with
      | some text => .ok (some text)
      | none => .error (.io "stream did not contain valid UTF-8")

end Advisor.Remote.Documentation

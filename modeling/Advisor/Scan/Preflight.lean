import Advisor.Locale
import Advisor.Scan.Context

namespace Advisor

inductive Preflight.Status
  | pass
  | limited
  | fail
  deriving DecidableEq, Repr, Inhabited

/-- Whether a context can carry its plan. What is missing forbids an answer; a caveat goes with it. -/
structure Preflight where
  status : Preflight.Status
  missing : List String
  caveats : List String
  deriving DecidableEq, Repr, Inhabited

namespace Preflight

def Status.name : Status → String
  | pass => "pass"
  | limited => "partial"
  | fail => "fail"

def Status.ofName? : String → Option Status
  | "pass" => some pass
  | "partial" => some limited
  | "fail" => some fail
  | _ => none

def toJson (p : Preflight) : Json :=
  .obj [
    ("status", .str p.status.name), ("missing", .arr (p.missing.map .str)),
    ("caveats", .arr (p.caveats.map .str))]

open Json.Decoder

def decoder : Json.Decoder Preflight :=
  record
    [ field "status" (named Status.ofName?) fun v p => { p with status := v },
      field "missing" (list string) fun v p => { p with missing := v },
      field "caveats" (list string) fun v p => { p with caveats := v }]
    ⟨.pass, [], []⟩

def missingFields (plan : Plan) (context : Scan.Context) : List String :=
  let trading := plan.intent == .tradingAnalysis
  let noRows := context.rows.isEmpty
  let visible := (context.summary.map (·.visibleRows)).getD 0
  (if (plan.contextLevel == .full || trading) && noRows then ["rows"] else []) ++
    if trading && visible == 0 && noRows then ["summary.visible_rows"] else []

def noAccountCaveat (locale : Locale) : String :=
  locale.pick
    "Live account data could not be loaded; account-specific figures may be missing."
    "Данные аккаунта загрузить не удалось; цифры по аккаунту могут отсутствовать."

def check (plan : Plan) (context : Scan.Context) (accountWanted : Bool) (locale : Locale) : Preflight :=
  let missing := missingFields plan context
  let caveats :=
    if accountWanted && !context.account.available then [noAccountCaveat locale] else []
  let status :=
    if !missing.isEmpty then Status.fail else if !caveats.isEmpty then .limited else .pass
  ⟨status, missing, caveats⟩

def refusal (p : Preflight) (locale : Locale) : String :=
  let fields := ", ".intercalate p.missing
  match locale with
  | .en =>
      "I can't analyse this yet: the current scan context is missing " ++ fields ++
        ". Run or refresh a scan so the results are visible, then ask again."
  | .ru =>
      "Пока не могу это проанализировать: в контексте скана не хватает " ++ fields ++
        ". Запустите или обновите скан, чтобы результаты были видны, и спросите снова."

end Preflight

end Advisor

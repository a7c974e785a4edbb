import Advisor.Answer.Rule
import Advisor.Dialogue.Basic

namespace Advisor.Answer

/-! An answer that the rules refuse is corrected once. If that does not help, the first answer stands
with warnings. -/

def instruction (reason : String) (intent : Intent) (locale : Locale) : String :=
  let request := match locale with
    | .en =>
        "Your previous answer was rejected: " ++ reason ++ ". Rewrite it for the user. " ++
        "Do not mention internal fields, plans or notes."
    | .ru =>
        "Предыдущий ответ отклонён: " ++ reason ++ ". Перепиши ответ для пользователя. " ++
        "Не упоминай внутренние поля, планы или заметки."
  if intent = .tradingAnalysis then
    request ++ " " ++ locale.pick
      "Ground the answer in the scan rows and quote concrete numbers."
      "Опирайся на строки скана и приводи конкретные числа."
  else request

def correctiveCall (call : Call) (refused reason : String) (intent : Intent) (locale : Locale) : Call :=
  { call with
    messages := call.messages ++
      [⟨.assistant, refused⟩, ⟨.user, instruction reason intent locale⟩] }

structure Checked where
  reply : Reply
  warnings : List String
  corrected : Bool

namespace Checked

def extraCalls (c : Checked) : Nat :=
  if c.corrected then 1 else 0

def ofCorrection (rules : List Rule) (intent : Intent) (first : Reply) (reason : String) :
    Except Failure Reply → Checked
  | .ok second =>
      match refusal? rules intent second.answer with
      | none => ⟨second, [], true⟩
      | some again => rejected again
  | .error e => rejected ("corrective call failed: " ++ e.message)
where
  rejected (again : String) : Checked :=
    ⟨first, ["answer validation: " ++ reason, "answer validation after retry: " ++ again], true⟩

end Checked

def checked (rules : List Rule) (call : Call) (first : Reply) (intent : Intent) (locale : Locale) :
    Dialogue Checked :=
  match refusal? rules intent first.answer with
  | none => return ⟨first, [], false⟩
  | some reason => do
      let second ← Dialogue.await (.completion (correctiveCall call first.answer reason intent locale))
      return .ofCorrection rules intent first reason second

end Advisor.Answer

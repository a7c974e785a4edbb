import Advisor.Message
import Advisor.Diagnostic

namespace Advisor.History

def maxMessages : Nat := 16

def maxMessageRunes : Nat := 4000

def speaker? (raw : String) : Option Role :=
  match Text.lower (Text.trim raw) with
  | "user" => some .user
  | "assistant" => some .assistant
  | _ => none

/-- A turn of the user or the assistant that says something. Assistant turns that leak are not kept. -/
def admit? (m : RawMessage) : Option Message := do
  let role ← speaker? m.role
  let content := Text.truncate (Text.trim m.content) maxMessageRunes
  if content.isEmpty || (role == .assistant && Diagnostic.leaks content) then none
  else return ⟨role, content⟩

def newest (n : Nat) (ms : List α) : List α :=
  ms.drop (ms.length - n)

def normalize (raw : List RawMessage) : List Message :=
  newest maxMessages (raw.filterMap admit?)

end Advisor.History

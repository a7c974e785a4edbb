import Advisor.Prompt.System
import Advisor.Prompt.User

namespace Advisor.Prompt

/-- Past turns are cut harder than the message at hand. -/
def historyTurnRunes : Nat := 1200

def pastTurns (history : List Message) : List Message :=
  (History.newest History.maxMessages history).map fun m =>
    { m with content := Text.truncate m.content historyTurnRunes }

def messages (b : Brief) : List Message :=
  ⟨.system, system b.plan b.turn.assistantName b.turn.locale⟩ :: pastTurns b.turn.history ++
    [⟨.user, user b⟩]

end Advisor.Prompt

import Advisor.Text.Runes

namespace Advisor.Diagnostic

/-- Names that the prompts use and an answer must not: they get out only when a model repeats its
instructions. -/
def markers : List String :=
  ["context_level", "response_mode", "need_wiki", "need_web", "ask_clarification",
    "preflight_status", "preflight_missing", "preflight_caveats", "internal_agent_notes",
    "planner_plan"]

def leaks (text : String) : Bool :=
  Text.containsAny (Text.lower text) markers

end Advisor.Diagnostic

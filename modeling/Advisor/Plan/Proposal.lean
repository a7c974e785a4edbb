import Advisor.Plan.Basic

namespace Advisor.Plan

/-! Reading the plan that a model proposes. Only names of the closed vocabularies pass; whatever is
missing or unknown is taken from the default plan of the intent. -/

def maxAgents : Nat := 6

def maxClarificationRunes : Nat := 280

def stringMember? (raw : Json) (key : String) : Option String :=
  (raw.get? key).bind Json.str?

def boolMember? (raw : Json) (key : String) : Option Bool :=
  match raw.get? key with
  | some (.bool b) => some b
  | some (.str s) =>
      match Text.lower (Text.trim s) with
      | "true" | "yes" => some true
      | "false" | "no" => some false
      | _ => none
  | _ => none

def agentsOf (items : List Json) : List Agent :=
  (((items.filterMap Json.str?).filterMap Agent.parse?).eraseDups).take maxAgents

def ofProposal (raw : Json) (classified : Intent) : Plan :=
  let intent := ((stringMember? raw "intent").bind Intent.parse?).getD classified
  let fallback := default intent
  { intent
    contextLevel :=
      ((stringMember? raw "context_level").bind ContextLevel.parse?).getD fallback.contextLevel
    responseMode :=
      ((stringMember? raw "response_mode").bind ResponseMode.parse?).getD fallback.responseMode
    needWiki := (boolMember? raw "need_wiki").getD fallback.needWiki
    needWeb := (boolMember? raw "need_web").getD fallback.needWeb
    askClarification := (boolMember? raw "ask_clarification").getD false
    clarification :=
      Text.truncate (Text.trim ((stringMember? raw "clarification").getD "")) maxClarificationRunes
    agents :=
      match (raw.get? "agents").bind Json.arr? with
      | some items => agentsOf items
      | none => fallback.agents }

def dropMarks (mark : List Char) : Nat → List Char → List Char
  | 0, cs => cs
  | fuel + 1, cs =>
      match Text.afterPrefix? mark cs with
      | some rest => dropMarks mark fuel rest
      | none => cs

def dropEndMarks (mark : List Char) (cs : List Char) : List Char :=
  (dropMarks mark.reverse cs.length cs.reverse).reverse

def unfenced (reply : List Char) : List Char :=
  let fence := ['\x60', '\x60', '\x60']
  let cs := Text.strip Text.isBlank reply
  let cs := dropMarks (fence ++ "json".toList) cs.length cs
  let cs := dropMarks fence cs.length cs
  Text.strip Text.isBlank (dropEndMarks fence cs)

/-- From the first opening brace to the last closing one. -/
def objectText? (reply : String) : Option String :=
  let cs := unfenced reply.toList
  let fromOpen := cs.dropWhile (· != '\x7b')
  let toClose := Text.dropEndWhile (· != '\x7d') fromOpen
  if toClose.isEmpty then none else some (.ofList toClose)

end Advisor.Plan

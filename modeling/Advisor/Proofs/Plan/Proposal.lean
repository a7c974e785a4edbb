import Advisor.Plan.Proposal
import Mathlib.Data.List.Perm.Subperm

/-!
What a proposed plan takes from the value that proposes it. A member that holds something valid is taken
at its word, and any other is as the default plan of the resolved intent has it.
-/

namespace Advisor

/-! A name is read back as what it names, and as nothing else. -/

theorem Intent.ofName?_eq_some {s : String} {i : Intent} : ofName? s = some i ↔ s = i.name := by
  constructor
  · intro h
    have hname := List.find?_some h
    exact (beq_iff_eq.1 hname).symm
  · rintro rfl
    cases i <;> rfl

theorem Agent.ofName?_eq_some {s : String} {a : Agent} : ofName? s = some a ↔ s = a.name := by
  constructor
  · intro h
    have hname := List.find?_some h
    exact (beq_iff_eq.1 hname).symm
  · rintro rfl
    cases a <;> rfl

theorem ContextLevel.ofName?_eq_some {s : String} {l : ContextLevel} :
    ofName? s = some l ↔ s = l.name := by
  constructor
  · intro h
    unfold ofName? at h
    split at h <;> cases h <;> rfl
  · rintro rfl
    cases l <;> rfl

theorem ResponseMode.ofName?_eq_some {s : String} {m : ResponseMode} :
    ofName? s = some m ↔ s = m.name := by
  constructor
  · intro h
    unfold ofName? at h
    split at h <;> cases h <;> rfl
  · rintro rfl
    cases m <;> rfl

namespace Plan

/-! What a member of a proposal may hold. -/

/-- A string that spells a name, in any letter case and with white space around it. -/
def HoldsName (name : α → String) (v : Json) (a : α) : Prop :=
  ∃ s, v = .str s ∧ Text.lower (Text.trim s) = name a

def truthWords : Bool → List String
  | true => ["true", "yes"]
  | false => ["false", "no"]

/-- A truth value, or a string that spells a word for one. -/
def HoldsTruth (v : Json) (b : Bool) : Prop :=
  v = .bool b ∨ ∃ s, v = .str s ∧ Text.lower (Text.trim s) ∈ truthWords b

/-- A string that spells the name of an agent, with hyphens or underscores. -/
def HoldsAgent (v : Json) (a : Agent) : Prop :=
  ∃ s, v = .str s ∧ Text.replaceChar '-' '_' (Text.lower (Text.trim s)) = a.name

/-- The agents that items name, beyond those already named: in the order of the items, each where it is
named first. An item that names none is passed over. -/
inductive Lists : (named : List Agent) → List Json → List Agent → Prop
  | nil : Lists named [] []
  | unknown (hitem : ∀ a, ¬ HoldsAgent item a) (rest : Lists named items new) :
      Lists named (item :: items) new
  | repeated (hitem : HoldsAgent item a) (hnamed : a ∈ named) (rest : Lists named items new) :
      Lists named (item :: items) new
  | first (hitem : HoldsAgent item a) (hnew : a ∉ named) (rest : Lists (a :: named) items new) :
      Lists named (item :: items) (a :: new)

def HoldsAgents (v : Json) (listed : List Agent) : Prop :=
  ∃ items, v = .arr items ∧ Lists [] items listed

/-- A string, of which the front counts without the white space around it. -/
def HoldsText (v : Json) (text : String) : Prop :=
  ∃ s, v = .str s ∧ text = Text.truncate (Text.trim s) maxClarificationRunes

/-- What the member of an object holds, or the fallback where it is missing or holds nothing valid. -/
def Taken (raw : Json) (key : String) (Holds : Json → α → Prop) (fallback a : α) : Prop :=
  (∃ v, raw.get? key = some v ∧ Holds v a) ∨
    (∀ v, raw.get? key = some v → ∀ b, ¬ Holds v b) ∧ a = fallback

/-- A plan that takes what a value holds, and all else from the default plan of its own intent. -/
structure Proposes (raw : Json) (classified : Intent) (plan : Plan) : Prop where
  intent : Taken raw "intent" (HoldsName Intent.name) classified plan.intent
  contextLevel : Taken raw "context_level" (HoldsName ContextLevel.name)
    (default plan.intent).contextLevel plan.contextLevel
  responseMode : Taken raw "response_mode" (HoldsName ResponseMode.name)
    (default plan.intent).responseMode plan.responseMode
  needWiki : Taken raw "need_wiki" HoldsTruth (default plan.intent).needWiki plan.needWiki
  needWeb : Taken raw "need_web" HoldsTruth (default plan.intent).needWeb plan.needWeb
  askClarification : Taken raw "ask_clarification" HoldsTruth
    (default plan.intent).askClarification plan.askClarification
  clarification : Taken raw "clarification" HoldsText
    (default plan.intent).clarification plan.clarification
  agents : Taken raw "agents" HoldsAgents (default plan.intent).agents plan.agents

section Members

variable {raw : Json} {key : String} {Holds : Json → α → Prop}

theorem taken_of_found {found : Option α}
    (hfound : ∀ a, found = some a ↔ ∃ v, raw.get? key = some v ∧ Holds v a) (fallback : α) :
    Taken raw key Holds fallback (found.getD fallback) := by
  cases found with
  | some a => exact .inl ((hfound a).1 rfl)
  | none =>
      refine .inr ⟨fun v hv b hb => ?_, rfl⟩
      have hsome := (hfound b).2 ⟨v, hv, hb⟩
      cases hsome

theorem stringMember?_bind_eq_some (read : String → Option α) (a : α) :
    (stringMember? raw key).bind read = some a ↔
      ∃ v, raw.get? key = some v ∧ ∃ s, v = .str s ∧ read s = some a := by
  unfold stringMember?
  cases raw.get? key with
  | none => simp
  | some v => cases v <;> simp [Json.str?]

theorem boolMember?_eq_some (b : Bool) :
    boolMember? raw key = some b ↔ ∃ v, raw.get? key = some v ∧ HoldsTruth v b := by
  unfold boolMember?
  cases raw.get? key with
  | none => simp
  | some v =>
      cases v with
      | bool c => simp [HoldsTruth]
      | str s =>
          simp only [Option.some.injEq, exists_eq_left', HoldsTruth, reduceCtorEq, false_or,
            Json.str.injEq]
          split <;> cases b <;> simp_all [truthWords]
      | _ => simp [HoldsTruth]

end Members

theorem taken_name {name : α → String} {ofName? : String → Option α}
    (hname : ∀ {s a}, ofName? s = some a ↔ s = name a) (raw : Json) (key : String) (fallback : α) :
    Taken raw key (HoldsName name) fallback
      (((stringMember? raw key).bind fun s => ofName? (Text.lower (Text.trim s))).getD fallback) := by
  refine taken_of_found (fun a => ?_) fallback
  rw [stringMember?_bind_eq_some]
  simp only [hname, HoldsName]

theorem taken_truth (raw : Json) (key : String) (fallback : Bool) :
    Taken raw key HoldsTruth fallback ((boolMember? raw key).getD fallback) :=
  taken_of_found boolMember?_eq_some fallback

theorem taken_text (raw : Json) (key : String) :
    Taken raw key HoldsText ""
      (Text.truncate (Text.trim ((stringMember? raw key).getD "")) maxClarificationRunes) := by
  have hread (a : String) : (stringMember? raw key).map
      (fun s => Text.truncate (Text.trim s) maxClarificationRunes) = some a ↔
        ∃ v, raw.get? key = some v ∧ HoldsText v a := by
    rw [Option.map_eq_bind, stringMember?_bind_eq_some]
    simp only [Function.comp_apply, Option.some.injEq, HoldsText, eq_comm (a := a)]
  have htaken := taken_of_found hread ""
  cases hmember : stringMember? raw key with
  | none =>
      rw [hmember] at htaken
      exact htaken
  | some s =>
      rw [hmember] at htaken
      exact htaken

section Agents

def agentOf? (item : Json) : Option Agent :=
  item.str?.bind Agent.parse?

theorem agentOf?_eq_some {item : Json} {a : Agent} : agentOf? item = some a ↔ HoldsAgent item a := by
  cases item <;> simp [agentOf?, Json.str?, HoldsAgent, Agent.parse?, Agent.ofName?_eq_some]

theorem lists_eraseDups (named : List Agent) (items : List Json) :
    Lists named items (((items.filterMap agentOf?).filter (· ∉ named)).eraseDups) := by
  induction items generalizing named with
  | nil => exact .nil
  | cons item items ih =>
      cases hitem : agentOf? item with
      | none =>
          rw [List.filterMap_cons_none hitem]
          refine .unknown (fun a ha => ?_) (ih named)
          rw [agentOf?_eq_some.2 ha] at hitem
          cases hitem
      | some a =>
          rw [List.filterMap_cons_some hitem]
          by_cases hnamed : a ∈ named
          · rw [List.filter_cons_of_neg (by simpa using hnamed)]
            exact .repeated (agentOf?_eq_some.1 hitem) hnamed (ih named)
          · rw [List.filter_cons_of_pos (by simpa using hnamed), List.eraseDups_cons,
              List.filter_filter]
            have hleft : (fun b => (!b == a) && decide (b ∉ named)) =
                fun b => decide (b ∉ a :: named) := by
              funext b
              by_cases hb : b = a <;> simp [hb]
            rw [hleft]
            exact .first (agentOf?_eq_some.1 hitem) hnamed (ih (a :: named))

theorem Lists.nodup {named new : List Agent} {items : List Json} (h : Lists named items new) :
    new.Nodup ∧ ∀ a ∈ new, a ∉ named := by
  induction h with
  | nil => simp
  | unknown _ _ ih => exact ih
  | repeated _ _ _ ih => exact ih
  | @first _ a named items new _ hnew _ ih =>
      obtain ⟨hnodup, hnot⟩ := ih
      constructor
      · refine List.nodup_cons.2 ⟨fun ha => ?_, hnodup⟩
        exact hnot a ha List.mem_cons_self
      · rintro b (_ | ⟨_, hb⟩)
        · exact hnew
        · exact fun hnamed => hnot b hb (List.mem_cons_of_mem a hnamed)

theorem length_le_maxAgents {agents : List Agent} (h : agents.Nodup) :
    agents.length ≤ maxAgents := by
  have hall : agents ⊆ Agent.all := by
    intro a _
    cases a <;> decide
  exact (h.subperm hall).length_le

theorem agentsOf_eq (items : List Json) : agentsOf items = (items.filterMap agentOf?).eraseDups := by
  have hlists := lists_eraseDups [] items
  have hshort := length_le_maxAgents hlists.nodup.1
  have hnone : (items.filterMap agentOf?).filter (· ∉ ([] : List Agent)) =
      items.filterMap agentOf? := by simp
  rw [hnone] at hshort
  unfold agentsOf
  rw [List.filterMap_filterMap]
  exact List.take_of_length_le hshort

theorem lists_agentsOf (items : List Json) : Lists [] items (agentsOf items) := by
  have hlists := lists_eraseDups [] items
  rw [agentsOf_eq]
  simpa using hlists

theorem taken_agents (raw : Json) (fallback : List Agent) :
    Taken raw "agents" HoldsAgents fallback
      (match (raw.get? "agents").bind Json.arr? with
        | some items => agentsOf items
        | none => fallback) := by
  cases hmember : raw.get? "agents" with
  | none =>
      refine .inr ⟨fun v hv => ?_, rfl⟩
      rw [hmember] at hv
      cases hv
  | some v =>
      cases v with
      | arr items => exact .inl ⟨_, hmember, items, rfl, lists_agentsOf items⟩
      | _ =>
          refine .inr ⟨fun v hv listed hlisted => ?_, rfl⟩
          obtain ⟨items, rfl, _⟩ := hlisted
          rw [hmember] at hv
          cases hv

end Agents

theorem proposes_ofProposal (raw : Json) (classified : Intent) :
    Proposes raw classified (ofProposal raw classified) where
  intent := taken_name Intent.ofName?_eq_some raw "intent" classified
  contextLevel := taken_name ContextLevel.ofName?_eq_some raw "context_level" _
  responseMode := taken_name ResponseMode.ofName?_eq_some raw "response_mode" _
  needWiki := taken_truth raw "need_wiki" _
  needWeb := taken_truth raw "need_web" _
  askClarification := by
    have hdefault (intent : Intent) : (default intent).askClarification = false := by
      cases intent <;> rfl
    rw [hdefault]
    exact taken_truth raw "ask_clarification" false
  clarification := by
    have hdefault (intent : Intent) : (default intent).clarification = "" := by
      cases intent <;> rfl
    rw [hdefault]
    exact taken_text raw "clarification"
  agents := taken_agents raw _

end Plan

end Advisor

import Advisor.Proofs.Distinct
import Advisor.Proofs.Json.Records
import Advisor.Proofs.Plan.Safety

/-!
A plan that a reply spells out is taken for just that plan, whatever else the reply says around it.
-/

namespace Advisor.Plan

open Json.Document

/-! What stands around the object goes, and the object stays. -/

section Wrapping

variable {c : Char} {p : Char → Bool} {f g : List Char → List Char} {cs body : List Char}

/-- Something is dropped from the front, but nothing from the character on. -/
def StopsAt (c : Char) (f : List Char → List Char) : Prop :=
  ∀ front cs, ∃ left, left <:+ front ∧ f (front ++ c :: cs) = left ++ c :: cs

theorem dropWhile_stopsAt (hc : p c = false) : StopsAt c (List.dropWhile p) := by
  intro front cs
  refine ⟨front.dropWhile p, List.dropWhile_suffix p, ?_⟩
  rw [List.dropWhile_append]
  split
  · rename_i hall
    rw [List.isEmpty_iff.1 hall, List.dropWhile_cons_of_neg (by simp [hc]), List.nil_append]
  · rfl

theorem prefix_of_prefix_append {mark front cs : List Char} (hc : c ∉ mark)
    (h : mark <+: front ++ c :: cs) : mark <+: front := by
  rcases List.prefix_or_prefix_of_prefix h (List.prefix_append front (c :: cs)) with hm | ⟨rest, rfl⟩
  · exact hm
  · cases rest with
    | nil => exact ⟨[], by simp⟩
    | cons d rest =>
        obtain ⟨rfl, -⟩ := List.cons_prefix_cons.1 ((List.prefix_append_right_inj front).1 h)
        exact absurd (List.mem_append_right front List.mem_cons_self) hc

theorem dropMarks_stopsAt {mark : List Char} (hc : c ∉ mark) (fuel : Nat) :
    StopsAt c (dropMarks mark fuel) := by
  intro front cs
  induction fuel generalizing front with
  | zero => exact ⟨front, List.suffix_refl front, rfl⟩
  | succ fuel ih =>
      unfold dropMarks Text.afterPrefix?
      by_cases hmark : mark.isPrefixOf (front ++ c :: cs)
      · obtain ⟨rest, rfl⟩ := prefix_of_prefix_append hc (List.isPrefixOf_iff_prefix.1 hmark)
        obtain ⟨left, hleft, heq⟩ := ih rest
        rw [if_pos hmark, List.append_assoc, List.drop_left]
        exact ⟨left, hleft.trans (List.suffix_append mark rest), heq⟩
      · rw [if_neg hmark]
        exact ⟨front, List.suffix_refl front, rfl⟩

/-- The text holds `body`, with no opening brace in front of it and no closing one behind it. -/
def Around (body cs : List Char) : Prop :=
  ∃ front back, '\x7b' ∉ front ∧ '\x7d' ∉ back ∧ cs = front ++ body ++ back

theorem Around.front (h : Around body cs) (hopen : ∃ inner, body = '\x7b' :: inner)
    (hf : StopsAt '\x7b' f) : Around body (f cs) := by
  obtain ⟨front, back, hfront, hback, rfl⟩ := h
  obtain ⟨inner, rfl⟩ := hopen
  obtain ⟨left, hleft, heq⟩ := hf front (inner ++ back)
  exact ⟨left, back, fun hmem => hfront (hleft.subset hmem), hback, by simpa using heq⟩

theorem Around.back (h : Around body cs) (hclose : ∃ inner, body = inner ++ ['\x7d'])
    (hf : StopsAt '\x7d' f) : Around body (f cs.reverse).reverse := by
  obtain ⟨front, back, hfront, hback, rfl⟩ := h
  obtain ⟨inner, rfl⟩ := hclose
  obtain ⟨left, hleft, heq⟩ := hf back.reverse (inner.reverse ++ front.reverse)
  refine ⟨front, left.reverse, hfront, fun hmem => hback ?_, ?_⟩
  · exact List.mem_reverse.1 (hleft.subset (List.mem_reverse.1 hmem))
  · rw [← List.reverse_inj, List.reverse_reverse]
    simpa using heq

theorem Around.unfenced (h : Around body cs) (hopen : ∃ inner, body = '\x7b' :: inner)
    (hclose : ∃ inner, body = inner ++ ['\x7d']) : Around body (unfenced cs) := by
  have hblank {cs : List Char} (h : Around body cs) : Around body (Text.strip Text.isBlank cs) :=
    (h.front hopen (dropWhile_stopsAt rfl)).back hclose (dropWhile_stopsAt rfl)
  have hmarks {mark : List Char} (hmark : '\x7b' ∉ mark) {cs : List Char} (h : Around body cs) :
      Around body (dropMarks mark cs.length cs) :=
    h.front hopen (dropMarks_stopsAt hmark _)
  have hend {mark : List Char} (hmark : '\x7d' ∉ mark) {cs : List Char} (h : Around body cs) :
      Around body (dropEndMarks mark cs) :=
    h.back hclose (dropMarks_stopsAt (mt List.mem_reverse.1 hmark) _)
  unfold Plan.unfenced
  exact hblank (hend (by decide) (hmarks (by decide) (hmarks (by decide) (hblank h))))

theorem objectText?_of_around {reply : String} (h : Around body reply.toList)
    (hopen : ∃ inner, body = '\x7b' :: inner) (hclose : ∃ inner, body = inner ++ ['\x7d']) :
    objectText? reply = some (.ofList body) := by
  obtain ⟨front, back, hfront, hback, heq⟩ := h.unfenced hopen hclose
  have hfromOpen : (front ++ body ++ back).dropWhile (· != '\x7b') = body ++ back := by
    obtain ⟨inner, rfl⟩ := hopen
    rw [List.append_assoc, List.dropWhile_append_of_pos fun c hc => ?_]
    · exact List.dropWhile_cons_of_neg (by decide)
    · exact bne_iff_ne.2 fun he => hfront (he ▸ hc)
  have htoClose : Text.dropEndWhile (· != '\x7d') (body ++ back) = body := by
    obtain ⟨inner, rfl⟩ := hclose
    rw [Text.dropEndWhile, List.reverse_append, List.dropWhile_append_of_pos fun c hc => ?_]
    · rw [List.reverse_append, List.reverse_singleton, List.singleton_append,
        List.dropWhile_cons_of_neg (by decide), List.reverse_cons, List.reverse_reverse]
    · exact bne_iff_ne.2 fun he => hback (he ▸ List.mem_reverse.1 hc)
  have hsome : ¬ body.isEmpty := by
    obtain ⟨inner, rfl⟩ := hopen
    exact Bool.false_ne_true
  unfold objectText?
  rw [heq]
  dsimp only
  rw [hfromOpen, htoClose, if_neg hsome]

end Wrapping

/-- The text is a JSON object with every member of the written plan. It may be laid out and escaped in any
way, and hold more. -/
def Encodes (text : String) (plan : Plan) : Prop :=
  ∃ v, Json.parse? text = some v ∧ v.isObj ∧
    ∀ key member, plan.toJson.get? key = some member → v.get? key = some member

/-- The object in other text, of which none in front opens an object and none behind closes one. -/
def Wraps (reply object : String) : Prop :=
  ∃ before after : String, '\x7b' ∉ before.toList ∧ '\x7d' ∉ after.toList ∧
    reply = before ++ object ++ after

theorem isObj_value {d : Json.Document} {room : Nat} {v : Json}
    (h : Json.Decoder.value room d = .ok v) (hobj : v.isObj) : ∃ ms closed, d = .obj ms closed := by
  cases d with
  | obj ms closed => exact ⟨ms, closed, rfl⟩
  | arr ds closed =>
      rw [Json.Decoder.value] at h
      obtain ⟨inside, _, hinside⟩ := exists_of_bind_ok h
      obtain ⟨vs, _, hends⟩ := exists_of_bind_ok hinside
      obtain ⟨_, _, hread⟩ := exists_of_bind_ok hends
      cases hread
      cases hobj
  | num n => cases n <;> cases h; cases hobj
  | str s => cases s <;> cases h; cases hobj
  | null | bool _ | broken => cases h <;> cases hobj

theorem Wraps.carries {reply object : String} {v : Json} (h : Wraps reply object)
    (hparse : Json.parse? object = some v) (hobj : v.isObj) : Carries reply v := by
  obtain ⟨before, after, hbefore, hafter, rfl⟩ := h
  obtain ⟨d, rest, hreads, hspace, hvalue⟩ := Json.parse?_eq_some.1 hparse
  obtain ⟨lead, body, hobject, hlead, hskip, hbody⟩ := hreads.core
  obtain ⟨ms, closed, rfl⟩ := isObj_value hvalue hobj
  obtain ⟨⟨inner, hopen⟩, front, hclose⟩ := hbody.obj_braces
  rw [hskip] at hopen
  have haround : Around body (before ++ object ++ after).toList := by
    refine ⟨before.toList ++ lead, rest ++ after.toList, ?_, ?_, by simp [hobject]⟩
    · rw [List.mem_append, not_or]
      exact ⟨hbefore, fun hmem => absurd (hlead _ hmem) (by decide)⟩
    · rw [List.mem_append, not_or]
      exact ⟨fun hmem => absurd (hspace _ hmem) (by decide), hafter⟩
  refine ⟨_, objectText?_of_around haround ⟨inner, hopen⟩ ⟨front, hclose.symm⟩, ?_, hobj⟩
  refine Json.parse?_eq_some.2 ⟨_, [], ?_, by simp, hvalue⟩
  rw [String.toList_ofList]
  exact hbody

section Members

variable {plan : Plan} {v : Json}

/-- What a plan is read back as: its question cut as any other, each of its agents once. -/
def reread (plan : Plan) : Plan :=
  { plan with
    clarification := Text.truncate (Text.trim plan.clarification) maxClarificationRunes
    agents := agentsOf (plan.agents.map fun a => .str a.name) }

theorem parse?_name_intent (i : Intent) : Intent.parse? i.name = some i := by
  cases i <;> decide +kernel

theorem parse?_name_contextLevel (l : ContextLevel) : ContextLevel.parse? l.name = some l := by
  cases l <;> decide +kernel

theorem parse?_name_responseMode (m : ResponseMode) : ResponseMode.parse? m.name = some m := by
  cases m <;> decide +kernel

theorem parse?_name_agent (a : Agent) : Agent.parse? a.name = some a := by
  cases a <;> decide +kernel

theorem ofProposal_eq_reread
    (h : ∀ key member, plan.toJson.get? key = some member → v.get? key = some member)
    (classified : Intent) : ofProposal v classified = plan.reread := by
  have hintent : v.get? "intent" = some (.str plan.intent.name) := h _ _ rfl
  have hlevel : v.get? "context_level" = some (.str plan.contextLevel.name) := h _ _ rfl
  have hmode : v.get? "response_mode" = some (.str plan.responseMode.name) := h _ _ rfl
  have hwiki : v.get? "need_wiki" = some (.bool plan.needWiki) := h _ _ rfl
  have hweb : v.get? "need_web" = some (.bool plan.needWeb) := h _ _ rfl
  have hask : v.get? "ask_clarification" = some (.bool plan.askClarification) := h _ _ rfl
  have htext : v.get? "clarification" = some (.str plan.clarification) := h _ _ rfl
  have hagents : v.get? "agents" = some (.arr (plan.agents.map fun a => .str a.name)) := h _ _ rfl
  simp only [ofProposal, stringMember?, boolMember?, hintent, hlevel, hmode, hwiki, hweb, hask, htext,
    hagents, Option.bind_some, Json.str?, Json.arr?, parse?_name_intent, parse?_name_contextLevel,
    parse?_name_responseMode, Option.getD_some, reread]

theorem agentsOf_names {agents : List Agent} (h : agents.Nodup) :
    agentsOf (agents.map fun a => .str a.name) = agents := by
  have hread : (agents.map fun a => Json.str a.name).filterMap agentOf? = agents := by
    rw [List.filterMap_map]
    have hsome : (agentOf? ∘ fun a => Json.str a.name) = some := by
      funext a
      rw [Function.comp_apply, agentOf?, Json.str?, Option.bind_some, parse?_name_agent]
    rw [hsome, List.filterMap_some]
  rw [agentsOf_eq, hread, eraseDups_of_nodup h]

end Members

theorem Encodes.ofReply {reply object : String} {plan : Plan} (h : Encodes object plan)
    (hwraps : Wraps reply object) (classified : Intent) :
    ofReply reply classified = .ok plan.reread := by
  obtain ⟨v, hparse, hobj, hmembers⟩ := h
  exact ofReply_eq_ok.2
    ⟨v, hwraps.carries hparse hobj, (ofProposal_eq_reread hmembers classified).symm⟩

section Reread

variable {plan : Plan}

theorem reread_eq_self (hagents : plan.agents.Nodup)
    (htrim : Text.trim plan.clarification = plan.clarification)
    (hshort : Text.runeCount plan.clarification ≤ maxClarificationRunes) : plan.reread = plan := by
  rw [reread, agentsOf_names hagents, htrim, Text.truncate_of_le hshort]

theorem reread_of_ofReply {reply : String} {classified : Intent}
    (h : ofReply reply classified = .ok plan) :
    plan.reread = { plan with clarification := Text.trimEnd plan.clarification } ∧
      Text.trim (Text.trimEnd plan.clarification) = Text.trim plan.clarification := by
  obtain ⟨raw, -, rfl⟩ := ofReply_eq_ok.1 h
  have htidy := (proposes_ofProposal raw classified).tidy
  have htrim : Text.trim (ofProposal raw classified).clarification =
      Text.trimEnd (ofProposal raw classified).clarification :=
    Text.trim_truncate_trim _ _
  have hshort := (Text.runeCount_trimEnd_le _).trans htidy.short
  refine ⟨?_, ?_⟩
  · rw [reread, agentsOf_names htidy.distinct, htrim, Text.truncate_of_le hshort]
  · rw [← htrim, Text.trim_trim]

end Reread

/-! What is written for a plan spells it out. -/

section Writing

theorem plain_names (agents : List Agent) :
    Json.LegibleItems (agents.map fun a => .str a.name) ∧
      Json.depthItems (agents.map fun a => .str a.name) = 0 ∧
        Json.mergedItems (agents.map fun a => .str a.name) = agents.map fun a => .str a.name := by
  induction agents with
  | nil => exact ⟨trivial, rfl, rfl⟩
  | cons a agents ih =>
      obtain ⟨hlegible, hdepth, hmerged⟩ := ih
      refine ⟨⟨trivial, hlegible⟩, ?_, ?_⟩
      · rw [List.map_cons, Json.depthItems, hdepth]
        rfl
      · rw [List.map_cons, Json.mergedItems, hmerged]
        rfl

theorem encodes_compact (plan : Plan) : Encodes (Json.compact plan.toJson) plan := by
  obtain ⟨hlegible, hdepth, hmerged⟩ := plain_names plan.agents
  have hparse := Json.parse?_compact (v := plan.toJson)
    (by simp [toJson, Json.Legible, Json.LegibleMembers, hlegible])
    (by simp [toJson, Json.depth, Json.depthMembers, hdepth, Json.Decoder.fullRoom])
  refine ⟨_, hparse, rfl, fun key member hmember => ?_⟩
  have hkeep : member.merged = member := by
    obtain ⟨before, after, hsplit, -⟩ := List.lookup_eq_some_iff.1 hmember
    have hmem : (key, member) ∈ before ++ (key, member) :: after := by simp
    rw [← hsplit] at hmem
    simp only [List.mem_cons, Prod.mk.injEq, List.not_mem_nil, or_false] at hmem
    rcases hmem with ⟨_, rfl⟩ | ⟨_, rfl⟩ | ⟨_, rfl⟩ | ⟨_, rfl⟩ | ⟨_, rfl⟩ | ⟨_, rfl⟩ | ⟨_, rfl⟩ |
      ⟨_, rfl⟩
    all_goals first | rfl | exact congrArg Json.arr hmerged
  refine (Json.get?_mergedMembers ?_ [] key).trans ?_
  · simp only [List.map_cons, List.map_nil]
    decide
  · rw [show Json.Fields.get? _ key = some member from hmember, Option.map_some, hkeep]
    rfl

end Writing

/-- Replies round-trip. A plan with distinct agents and a short trimmed question is what its encoding is
taken for, however it is laid out and wrapped. A plan that any reply is taken for comes back from its
encoding as it was, except for white space at the end of its question, which leaves the question that is put
as it was. And every plan has an encoding. -/
theorem ofReply_roundTrip :
    (∀ (plan : Plan) (object reply : String) (classified : Intent),
      plan.agents.Nodup → Text.trim plan.clarification = plan.clarification →
        Text.runeCount plan.clarification ≤ 280 → Encodes object plan → Wraps reply object →
          ofReply reply classified = .ok plan) ∧
    (∀ (plan : Plan) (reply : String) (classified : Intent), ofReply reply classified = .ok plan →
      ∀ (object again : String) (classified' : Intent), Encodes object plan → Wraps again object →
        ∃ plan', ofReply again classified' = .ok plan' ∧
          plan' = { plan with clarification := Text.trimEnd plan.clarification } ∧
          plan'.question? = plan.question?) ∧
    ∀ plan : Plan, Encodes (Json.compact plan.toJson) plan := by
  refine ⟨?_, ?_, encodes_compact⟩
  · intro plan object reply classified hagents htrim hshort hencodes hwraps
    rw [hencodes.ofReply hwraps, reread_eq_self hagents htrim hshort]
  · intro plan reply classified hreply object again classified' hencodes hwraps
    obtain ⟨hreread, htrim⟩ := reread_of_ofReply hreply
    refine ⟨plan.reread, hencodes.ofReply hwraps classified', hreread, ?_⟩
    rw [hreread, question?, question?, htrim]

theorem ofReply_roundTrip_fenced :
    let plan : Plan := { default .general with clarification := "Is \"\x7b\x60\x7d\" a row, or \\\x7b?" }
    ofReply ("\x60\x60\x60json\n" ++ Json.compact plan.toJson ++ "\n\x60\x60\x60") .smalltalk = .ok plan ∧
      ∃ plan', ofReply (Json.compact plan.toJson) .debugSupport = .ok plan' ∧
        plan' = { plan with clarification := Text.trimEnd plan.clarification } ∧
        plan'.question? = plan.question? := by
  intro plan
  have hencodes := ofReply_roundTrip.2.2 plan
  have hreply := ofReply_roundTrip.1 plan _ _ .smalltalk (by decide) (by decide +kernel) (by decide)
    hencodes ⟨"\x60\x60\x60json\n", "\n\x60\x60\x60", by decide, by decide, rfl⟩
  refine ⟨hreply, ofReply_roundTrip.2.1 plan _ _ hreply _ _ .debugSupport hencodes
    ⟨"", "", by decide, by decide, ?_⟩⟩
  rw [String.empty_append, String.append_empty]

end Advisor.Plan

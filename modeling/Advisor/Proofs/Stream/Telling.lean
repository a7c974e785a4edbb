import Advisor.Proofs.Json.Faithful
import Advisor.Proofs.Plan.Proposal
import Advisor.Stream.Event

/-!
An event is told by its object: its type, what it carries and how far the turn is. No two events have the
same object, and an object reads back if the numbers in it are what they can be.
-/

namespace Advisor

section Names

theorem injective_of_named {name : α → String} {ofName? : String → Option α}
    (hname : ∀ {s a}, ofName? s = some a ↔ s = name a) : Function.Injective name := fun _ _ h =>
  Option.some.inj ((hname.2 rfl).symm.trans (hname.2 h))

theorem Intent.name_injective : Function.Injective Intent.name :=
  injective_of_named Intent.ofName?_eq_some

theorem ContextLevel.name_injective : Function.Injective ContextLevel.name :=
  injective_of_named ContextLevel.ofName?_eq_some

theorem ResponseMode.name_injective : Function.Injective ResponseMode.name :=
  injective_of_named ResponseMode.ofName?_eq_some

theorem Agent.name_injective : Function.Injective Agent.name :=
  injective_of_named Agent.ofName?_eq_some

theorem Preflight.Status.name_injective : Function.Injective Preflight.Status.name := by
  intro a b h
  cases a <;> cases b <;> first | rfl | exact absurd h (by decide)

end Names

section Objects

theorem Plan.toJson_injective : Function.Injective Plan.toJson := by
  rintro ⟨intent, level, mode, wiki, web, ask, question, agents⟩ ⟨⟩ h
  have hagent : Function.Injective fun a : Agent => Json.str a.name :=
    Json.str_injective.comp Agent.name_injective
  simpa only [toJson, Json.obj.injEq, List.cons.injEq, Prod.mk.injEq, Json.str.injEq, Json.bool.injEq,
    Json.arr.injEq, true_and, and_true, Intent.name_injective.eq_iff, ContextLevel.name_injective.eq_iff,
    ResponseMode.name_injective.eq_iff, hagent.list_map.eq_iff, Plan.mk.injEq] using h

theorem Preflight.toJson_injective : Function.Injective Preflight.toJson := by
  rintro ⟨status, missing, caveats⟩ ⟨⟩ h
  simpa only [toJson, Json.obj.injEq, List.cons.injEq, Prod.mk.injEq, Json.str.injEq, Json.arr.injEq,
    true_and, and_true, Status.name_injective.eq_iff, Json.str_injective.list_map.eq_iff,
    Preflight.mk.injEq] using h

theorem Trail.toJson_injective : Function.Injective Trail.toJson := by
  have hname : Function.Injective fun i : Intent => Json.str i.name :=
    Json.str_injective.comp Intent.name_injective
  have hintent := Json.ofOption_injective hname fun _ => nofun
  have hplan := Json.ofOption_injective Plan.toJson_injective fun _ => nofun
  have hpreflight := Json.ofOption_injective Preflight.toJson_injective fun _ => nofun
  rintro ⟨⟩ ⟨⟩ h
  simpa only [toJson, Json.obj.injEq, List.cons.injEq, Prod.mk.injEq, Json.str.injEq, Json.bool.injEq,
    true_and, and_true, hintent.eq_iff, hplan.eq_iff, hpreflight.eq_iff, Json.ofNat_injective.eq_iff,
    Trail.mk.injEq] using h

theorem ChatResponse.toJson_injective : Function.Injective ChatResponse.toJson := by
  rintro ⟨⟩ ⟨⟩ h
  simpa only [toJson, Json.obj.injEq, List.cons.injEq, Prod.mk.injEq, Json.str.injEq, Json.arr.injEq,
    true_and, and_true, Intent.name_injective.eq_iff, Trail.toJson_injective.eq_iff,
    Json.str_injective.list_map.eq_iff, ChatResponse.mk.injEq] using h

end Objects

section Legible

theorem Plan.legible (plan : Plan) : plan.toJson.Legible := by
  simp [toJson, Json.Legible, Json.LegibleMembers, Json.legibleItems_iff]

theorem Preflight.legible (p : Preflight) : p.toJson.Legible := by
  simp [toJson, Json.Legible, Json.LegibleMembers, Json.legibleItems_iff]

/-- The counts of a trail fit a machine word. -/
structure Trail.Fits (t : Trail) : Prop where
  wiki : t.wikiSnippets < 2 ^ 64
  web : t.webSnippets < 2 ^ 64
  calls : t.modelCalls < 2 ^ 64

theorem Trail.fits_start (requestId : String) : (Trail.start requestId).Fits :=
  ⟨Nat.two_pow_pos 64, Nat.two_pow_pos 64, Nat.two_pow_pos 64⟩

theorem Trail.Fits.legible {t : Trail} (h : t.Fits) : t.toJson.Legible := by
  have hintent := Json.legible_ofOption (f := fun i : Intent => .str i.name) (fun _ => trivial)
    t.classifiedIntent
  have hplan := Json.legible_ofOption Plan.legible t.plan
  have hpreflight := Json.legible_ofOption Preflight.legible t.preflight
  simp [toJson, Json.Legible, Json.LegibleMembers, hintent, hplan, hpreflight,
    Json.legible_ofNat h.wiki, Json.legible_ofNat h.web, Json.legible_ofNat h.calls]

theorem ChatResponse.legible {r : ChatResponse} (htrail : r.trail.Fits)
    (husage : Json.LegibleMembers r.usage) : r.toJson.Legible := by
  simp [toJson, Json.Legible, Json.LegibleMembers, Json.legibleItems_iff, htrail.legible, husage]

end Legible

namespace Stream.Event

def tag : Event → String
  | progress .. => "progress"
  | delta .. => "delta"
  | usage .. => "usage"
  | result .. => "result"
  | error .. => "error"

/-- What an event carries, under the name that it goes by. -/
def payload : Event → String × Json
  | progress stage _ => ("stage", .str stage)
  | delta text _ => ("delta", .str text)
  | usage u _ => ("usage", .obj u)
  | result r _ => ("result", r.toJson)
  | error text _ => ("error", .str text)

def members (e : Event) : List (String × Json) :=
  [("type", .str e.tag), e.payload, ("progress_pct", .ofNat e.pct)]

theorem toJson_eq (e : Event) : e.toJson = .obj e.members := by
  cases e <;> rfl

theorem toJson_injective : Function.Injective toJson := by
  intro e f h
  rw [toJson_eq, toJson_eq, Json.obj.injEq] at h
  simp only [members, List.cons.injEq, Prod.mk.injEq, Json.str.injEq, Json.ofNat_injective.eq_iff,
    true_and, and_true] at h
  obtain ⟨htag, hpayload, hpct⟩ := h
  cases e <;> cases f <;>
    first
      | exact absurd htag (by decide)
      | simp_all [payload, pct, ChatResponse.toJson_injective.eq_iff]

theorem nodup_members (e : Event) : (e.members.map Prod.fst).Nodup := by
  cases e <;> simp [members, payload]

/-- An event as it is sent. The share is a byte and the counts of an answer are machine words; the numbers
that come with a model's usage read back from their digits. -/
structure Sound (e : Event) : Prop where
  byte : e.pct < 2 ^ 8
  carried : match e with
    | .usage u _ => Json.LegibleMembers u
    | .result r _ => r.trail.Fits ∧ Json.LegibleMembers r.usage
    | _ => True

theorem Sound.payload {e : Event} (h : e.Sound) : e.payload.2.Legible := by
  cases e with
  | progress | delta | error => trivial
  | usage => exact h.carried
  | result => exact ChatResponse.legible h.carried.1 h.carried.2

theorem Sound.legible {e : Event} (h : e.Sound) : e.toJson.Legible := by
  rw [toJson_eq]
  exact ⟨trivial, h.payload, Json.legible_ofNat (Nat.lt_trans h.byte (by decide)), trivial⟩

end Stream.Event

end Advisor

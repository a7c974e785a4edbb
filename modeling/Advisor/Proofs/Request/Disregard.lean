import Advisor.Proofs.Json.OpenRecords
import Advisor.Proofs.Json.Reading
import Advisor.Request

/-!
What a client sends of its account is passed over: two bodies that write the same object but for it hold
the same request.
-/

namespace Advisor

open Json Json.Document

namespace Json.Decoder

section Records

variable {ρ : Type} {schema : List (Field ρ)}

def without (key : String) (ms : List (Option String × Document)) : List (Option String × Document) :=
  ms.filter (·.1 != some key)

theorem without_cons_self (key : String) (d : Document) (ms : List (Option String × Document)) :
    without key ((some key, d) :: ms) = without key ms := by
  rw [without, List.filter_cons_of_neg (by simp)]
  rfl

theorem without_cons_of_ne {key : String} {m : Option String × Document} (h : m.1 ≠ some key)
    (ms : List (Option String × Document)) : without key (m :: ms) = m :: without key ms := by
  rw [without, List.filter_cons_of_pos (by simpa using h)]
  rfl

theorem recordMembers_without {key : String} (hkey : schema.find? (·.name == key) = none)
    {room : Nat} {seen : List String} {r : ρ} {ms : List (Option String × Document)}
    (hwhole : membersWhole ms) :
    recordMembers schema .skipped room seen r (without key ms) =
      recordMembers schema .skipped room seen r ms := by
  induction ms generalizing seen r with
  | nil => rfl
  | cons m ms ih =>
      obtain ⟨name, d⟩ := m
      rw [membersWhole, Bool.and_eq_true] at hwhole
      cases name with
      | none =>
          rw [without_cons_of_ne (by simp)]
          rfl
      | some name =>
          by_cases hname : name = key
          · subst hname
            rw [without_cons_self, ih hwhole.2, recordMembers, hkey]
            simp only [others, hwhole.1, if_true]
            rfl
          · rw [without_cons_of_ne (by simpa using hname)]
            simp only [recordMembers, ih hwhole.2]

theorem record_without {key : String} (hkey : schema.find? (·.name == key) = none) {blank : ρ}
    {room : Nat} {ms : List (Option String × Document)} (hwhole : membersWhole ms) :
    record schema blank room (.obj (without key ms) true) = record schema blank room (.obj ms true) := by
  simp only [record, recordObject, recordMembers_without hkey hwhole]

/-- Two members that a record takes for the same: the field that has their key reads both alike. -/
def Interchangeable (schema : List (Field ρ)) (m m' : Option String × Document) : Prop :=
  m = m' ∨ ∃ key f, m.1 = some key ∧ m'.1 = some key ∧ schema.find? (·.name == key) = some f ∧
    ∀ room r, f.read room m.2 r = f.read room m'.2 r

theorem recordMembers_congr {rest : Others ρ} {room : Nat} {seen : List String} {r : ρ}
    {ms ms' : List (Option String × Document)} (h : List.Forall₂ (Interchangeable schema) ms ms') :
    recordMembers schema rest room seen r ms = recordMembers schema rest room seen r ms' := by
  induction h generalizing seen r with
  | nil => rfl
  | @cons m m' ms ms' hm _ ih =>
      obtain ⟨name, d⟩ := m
      obtain ⟨name', d'⟩ := m'
      rcases hm with he | ⟨key, f, rfl, rfl, hf, hread⟩
      · cases he
        cases name with
        | none => rfl
        | some name => simp only [recordMembers, ih]
      · simp only [recordMembers, hf, hread, ih]

theorem record_congr {blank : ρ} {room : Nat} {ms ms' : List (Option String × Document)}
    {closed : Bool} (h : List.Forall₂ (Interchangeable schema) ms ms') :
    record schema blank room (.obj ms closed) = record schema blank room (.obj ms' closed) := by
  simp only [record, recordObject, recordMembers_congr h]

end Records

end Json.Decoder

open Json.Decoder

theorem Scan.Context.decoder_without {room : Nat} {ms : List (Option String × Document)}
    (hwhole : membersWhole ms) :
    decoder room (.obj (without "runtime" ms) true) = decoder room (.obj ms true) :=
  record_without rfl hwhole

namespace ChatRequest

/-- Two members of a chat request that are the same, but for the account data of a context. -/
inductive SameMember : (m m' : Option String × Document) → Prop
  | same (m : Option String × Document) : SameMember m m
  | context (same : without "runtime" ms = without "runtime" ms') :
      SameMember (some "context", .obj ms true) (some "context", .obj ms' true)

/-- Two texts that write the same object, but for the account data of its context. -/
def SameBody (body body' : String) : Prop :=
  ∃ ms ms' rest rest', Reads (.doc (.obj ms true)) body.toList rest ∧
    Reads (.doc (.obj ms' true)) body'.toList rest' ∧ List.Forall₂ SameMember ms ms'

theorem SameMember.interchangeable {m m' : Option String × Document} (h : SameMember m m')
    (hwhole : m.2.isWhole) (hwhole' : m'.2.isWhole) {fields : List (Decoder.Field ChatRequest)}
    (hcontext : fields.find? (·.name == "context") =
      some (defaulted "context" Scan.Context.decoder fun v r => { r with context := v })) :
    Interchangeable fields m m' := by
  cases h with
  | same => exact .inl rfl
  | @context ms ms' same =>
      refine .inr ⟨"context", _, rfl, rfl, hcontext, fun room r => ?_⟩
      simp only [isWhole, Bool.and_true] at hwhole hwhole'
      have hread : Scan.Context.decoder room (.obj ms true) =
          Scan.Context.decoder room (.obj ms' true) := by
        rw [← Scan.Context.decoder_without hwhole, same, Scan.Context.decoder_without hwhole']
      simp only [defaulted, hread]

theorem interchangeable_of_whole {ms ms' : List (Option String × Document)}
    (h : List.Forall₂ SameMember ms ms') (hwhole : membersWhole ms) (hwhole' : membersWhole ms')
    {fields : List (Decoder.Field ChatRequest)}
    (hcontext : fields.find? (·.name == "context") =
      some (defaulted "context" Scan.Context.decoder fun v r => { r with context := v })) :
    List.Forall₂ (Interchangeable fields) ms ms' := by
  induction h with
  | nil => exact .nil
  | cons hm _ ih =>
      rw [membersWhole, Bool.and_eq_true] at hwhole hwhole'
      exact .cons (hm.interchangeable hwhole.1 hwhole'.1 hcontext) (ih hwhole.2 hwhole'.2)

theorem ofPrefix_same {body body' : String} (h : SameBody body body') :
    ofPrefix decoder body = ofPrefix decoder body' := by
  obtain ⟨ms, ms', rest, rest', hreads, hreads', hsame⟩ := h
  have hwhole : membersWhole ms := by simpa [Part.IsWhole, isWhole] using hreads.isWhole
  have hwhole' : membersWhole ms' := by simpa [Part.IsWhole, isWhole] using hreads'.isWhole
  unfold ofPrefix
  rw [read_eq_some.2 hreads, read_eq_some.2 hreads']
  exact record_congr (interchangeable_of_whole hsame hwhole hwhole' rfl)

theorem decoder_account {d : Document} {r : ChatRequest} (h : decoder room d = .ok r) :
    r.context.account = .empty := by
  have hread := record_given "context" context h rfl (fun _ _ => rfl) (by simp) (by decide)
  cases hgiven : d.given? _ "context" with
  | none =>
      rw [hgiven] at hread
      rw [← Except.ok.inj hread]
      rfl
  | some given =>
      rw [hgiven] at hread
      exact record_keeps hread (by simp)

end ChatRequest

end Advisor

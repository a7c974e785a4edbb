import Advisor.Proofs.Json.Records
import Mathlib.Data.String.Basic

/-!
Values as a decoder makes them, with the members of every object in the order of their keys. Such a value
is read back as it is.
-/

namespace Advisor.Json

open Document

/-- A value is read back as it is wherever there is this much room. -/
def Settled (room : Nat) (v : Json) : Prop :=
  ∀ room', room ≤ room' → Decoder.value room' (.ofJson v) = .ok v

/-- Members in the order of their keys, no key twice, and each of them read back as it is. -/
structure Fields.Settled (room : Nat) (fs : Fields) : Prop where
  inOrder : fs.Pairwise fun a b => a.1 < b.1
  values : ∀ m ∈ fs, m.2.Settled room

namespace Fields

variable {room : Nat} {fs : Fields} {key : String} {v : Json}

theorem Settled.nil : Fields.Settled room [] :=
  ⟨.nil, by simp⟩

theorem Settled.nodup (h : fs.Settled room) : (fs.map Prod.fst).Nodup :=
  List.pairwise_map.2 (h.inOrder.imp ne_of_lt)

theorem Settled.mono (h : fs.Settled room) {room' : Nat} (hroom : room ≤ room') :
    fs.Settled room' :=
  ⟨h.inOrder, fun m hm room'' hroom' => h.values m hm room'' (hroom.trans hroom')⟩

theorem mem_insert {m : String × Json} (h : m ∈ fs.insert key v) : m = (key, v) ∨ m ∈ fs := by
  induction fs with
  | nil => exact .inl (List.mem_singleton.1 h)
  | cons n rest ih =>
      obtain ⟨k, w⟩ := n
      rw [insert] at h
      split at h
      · exact List.mem_cons.1 h
      split at h
      · exact (List.mem_cons.1 h).imp_right (List.mem_cons_of_mem _)
      · rcases List.mem_cons.1 h with rfl | h
        · exact .inr List.mem_cons_self
        · exact (ih h).imp_right (List.mem_cons_of_mem _)

theorem inOrder_insert (h : fs.Pairwise fun a b => a.1 < b.1) (key : String) (v : Json) :
    (fs.insert key v).Pairwise fun a b => a.1 < b.1 := by
  induction fs with
  | nil => exact List.pairwise_singleton ..
  | cons n rest ih =>
      obtain ⟨k, w⟩ := n
      obtain ⟨hk, hrest⟩ := List.pairwise_cons.1 h
      rw [insert]
      split
      · rename_i hlt
        refine List.pairwise_cons.2 ⟨fun m hm => ?_, h⟩
        rcases List.mem_cons.1 hm with rfl | hm
        · exact hlt
        · exact lt_trans hlt (hk m hm)
      split
      · rename_i heq
        subst heq
        exact List.pairwise_cons.2 ⟨hk, hrest⟩
      · rename_i hnot hne
        refine List.pairwise_cons.2 ⟨fun m hm => ?_, ih hrest⟩
        rcases mem_insert hm with rfl | hm
        · exact lt_of_le_of_ne (not_lt.1 hnot) (Ne.symm hne)
        · exact hk m hm

theorem Settled.insert (h : fs.Settled room) (key : String) (hv : v.Settled room) :
    (fs.insert key v).Settled room := by
  refine ⟨inOrder_insert h.inOrder key v, fun m hm => ?_⟩
  rcases mem_insert hm with rfl | hm
  · exact hv
  · exact h.values m hm

theorem insert_last (h : ∀ m ∈ fs, m.1 < key) (v : Json) : fs.insert key v = fs ++ [(key, v)] := by
  induction fs with
  | nil => rfl
  | cons n rest ih =>
      obtain ⟨k, w⟩ := n
      obtain ⟨hk, hrest⟩ := List.forall_mem_cons.1 h
      rw [insert, if_neg (lt_asymm hk), if_neg (ne_of_gt hk), ih hrest]
      rfl

theorem filter_eq_of_get? (hnodup : (fs.map Prod.fst).Nodup) (h : Fields.get? fs key = some v) :
    fs.filter (·.1 == key) = [(key, v)] := by
  induction fs with
  | nil => cases h
  | cons n rest ih =>
      obtain ⟨k, w⟩ := n
      obtain ⟨hk, hrest⟩ := List.nodup_cons.1 hnodup
      rw [get?_cons] at h
      by_cases hkey : key = k
      · subst hkey
        rw [if_pos rfl] at h
        cases h
        rw [List.filter_cons_of_pos (by simp), List.filter_eq_nil_iff.2 fun m hm heq => hk ?_]
        exact List.mem_map.2 ⟨m, hm, beq_iff_eq.1 heq⟩
      · rw [if_neg hkey] at h
        rw [List.filter_cons_of_neg (by simpa using Ne.symm hkey), ih hrest h]

end Fields

namespace Decoder

theorem of_enter {room inside : Nat} (h : enter room = .ok inside) : 1 < room ∧ inside = room - 1 := by
  unfold enter at h
  split at h
  · cases h
  · cases h
    exact ⟨by omega, rfl⟩

theorem enter_of_le {room room' inside : Nat} (h : enter room = .ok inside) (hroom : room ≤ room') :
    ∃ inside', enter room' = .ok inside' ∧ inside ≤ inside' := by
  obtain ⟨hone, rfl⟩ := of_enter h
  exact ⟨room' - 1, if_neg (by omega), by omega⟩

theorem closing_ok {closed : Bool} (h : closing closed = .ok u) : closed = true := by
  cases closed with
  | false => cases h
  | true => rfl

theorem members_inOrder {room room' : Nat} (hroom : room ≤ room') (done ms : Fields)
    (hinOrder : (done ++ ms).Pairwise fun a b => a.1 < b.1) (hvalues : ∀ m ∈ ms, m.2.Settled room) :
    members room' done (ofMembers ms) = .ok (done ++ ms) := by
  induction ms generalizing done with
  | nil => rw [ofMembers, members, List.append_nil]
  | cons m ms ih =>
      obtain ⟨key, v⟩ := m
      obtain ⟨hv, hms⟩ := List.forall_mem_cons.1 hvalues
      have hlast : ∀ m ∈ done, m.1 < key := fun m hm =>
        (List.pairwise_append.1 hinOrder).2.2 m hm _ List.mem_cons_self
      rw [List.append_cons] at hinOrder ⊢
      rw [ofMembers, members, hv room' hroom]
      change members room' (done.insert key v) (ofMembers ms) = _
      rw [Fields.insert_last hlast v]
      exact ih (done ++ [(key, v)]) hinOrder hms

theorem fields_ofJson {room : Nat} {fs : Fields} (hroom : 1 < room) (h : fs.Settled (room - 1)) :
    fields room (.ofJson (.obj fs)) = .ok fs := by
  have henter : enter room = .ok (room - 1) := if_neg (Nat.not_le.2 hroom)
  rw [Document.ofJson, fields, henter]
  change (members (room - 1) [] (ofMembers fs) >>= _) = _
  rw [members_inOrder le_rfl [] fs h.inOrder h.values]
  rfl

mutual

theorem settled_value (d : Document) {room : Nat} {v : Json} (h : value room d = .ok v) :
    v.Settled room := by
  intro room' hroom
  match d with
  | .null => cases h; rfl
  | .bool b => cases h; rfl
  | .num (some n) => cases h; rfl
  | .str (some s) => cases h; rfl
  | .num none => cases h
  | .str none => cases h
  | .broken => cases h
  | .arr ds closed =>
      rw [value] at h
      obtain ⟨inside, henter, h⟩ := exists_of_bind_ok h
      obtain ⟨vs, hvalues, h⟩ := exists_of_bind_ok h
      obtain ⟨_, _, h⟩ := exists_of_bind_ok h
      cases h
      obtain ⟨inside', henter', hinside⟩ := enter_of_le henter hroom
      rw [Document.ofJson, value, henter']
      change (values inside' (ofItems vs) >>= _) = _
      rw [settled_values ds hvalues inside' hinside]
      rfl
  | .obj ms closed =>
      rw [value] at h
      obtain ⟨inside, henter, h⟩ := exists_of_bind_ok h
      obtain ⟨fs, hmembers, h⟩ := exists_of_bind_ok h
      obtain ⟨_, _, h⟩ := exists_of_bind_ok h
      cases h
      obtain ⟨hone, rfl⟩ := of_enter henter
      have hsettled := settled_members ms hmembers .nil
      have hfields := members_inOrder (show room - 1 ≤ room' - 1 by omega) [] fs hsettled.inOrder
        hsettled.values
      have henter' : enter room' = .ok (room' - 1) := if_neg (by omega)
      rw [Document.ofJson, value, henter']
      change (members (room' - 1) [] (ofMembers fs) >>= _) = _
      rw [hfields]
      rfl

theorem settled_values (ds : List Document) {room : Nat} {vs : List Json}
    (h : values room ds = .ok vs) (room' : Nat) (hroom : room ≤ room') :
    values room' (ofItems vs) = .ok vs := by
  match ds with
  | [] =>
      cases h
      rfl
  | d :: ds =>
      rw [values] at h
      obtain ⟨v, hv, h⟩ := exists_of_bind_ok h
      obtain ⟨rest, hrest, h⟩ := exists_of_bind_ok h
      cases h
      rw [ofItems, values, settled_value d hv room' hroom]
      change (values room' (ofItems rest) >>= _) = _
      rw [settled_values ds hrest room' hroom]
      rfl

theorem settled_members (ms : List (Option String × Document)) {room : Nat} {done fs : Fields}
    (h : members room done ms = .ok fs) (hdone : done.Settled room) : fs.Settled room := by
  match ms with
  | [] =>
      cases h
      exact hdone
  | (none, _) :: _ => cases h
  | (some key, d) :: ms =>
      rw [members] at h
      obtain ⟨v, hv, h⟩ := exists_of_bind_ok h
      exact settled_members ms h (hdone.insert key (settled_value d hv))

end

end Decoder

end Advisor.Json

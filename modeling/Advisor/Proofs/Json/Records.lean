import Advisor.Proofs.Json.RoundTrip

/-!
How a record is read from an object that is written as it likes: in any order, with members that no field
names, and without those that may be missing.
-/

namespace Advisor

theorem exists_of_bind_ok {x : Except ε α} {f : α → Except ε β} (h : x >>= f = .ok b) :
    ∃ a, x = .ok a ∧ f a = .ok b := by
  cases x with
  | error e => cases h
  | ok a => exact ⟨a, rfl, h⟩

theorem exists_of_map_ok {x : Except ε α} {f : α → β} (h : x.map f = .ok b) :
    ∃ a, x = .ok a ∧ f a = b := by
  cases x with
  | error e => cases h
  | ok a => exact ⟨a, rfl, Except.ok.inj h⟩

namespace Json

open Document

/-- A text that is a value between white space. -/
def Writes (text : String) (v : Json) : Prop :=
  ∃ rest, Reads (.doc (.ofJson v)) text.toList rest ∧ ∀ c ∈ rest, isSpace c

theorem Writes.ofText (h : Writes text v) (decode : Decoder α) :
    Decoder.ofText decode text = decode Decoder.fullRoom (.ofJson v) := by
  obtain ⟨rest, hreads, hspace⟩ := h
  rw [Decoder.ofText, read_eq_some.2 hreads]
  cases hdecode : decode Decoder.fullRoom (Document.ofJson v) with
  | error e =>
      dsimp only
      rw [hdecode]
      rfl
  | ok a =>
      dsimp only
      rw [hdecode]
      exact if_pos (List.all_eq_true.2 hspace)

theorem writes_compact {v : Json} (h : v.Legible) : Writes v.compact v := by
  refine ⟨[], ?_, by simp⟩
  have hreads := reads_compact v h (follows_nil [])
  rwa [List.append_nil] at hreads

/-- What an object says under a key: null where it says nothing. -/
def said (members : List (String × Json)) (key : String) : Json :=
  (Fields.get? members key).getD .null

theorem said_of_get? {members : List (String × Json)} (h : Fields.get? members key = some v) :
    said members key = v := by
  rw [said, h, Option.getD_some]

theorem get?_of_said {members : List (String × Json)} (h : said members key = v) (hv : v ≠ .null) :
    Fields.get? members key = some v := by
  cases hget : Fields.get? members key with
  | none =>
      rw [said, hget] at h
      exact absurd h.symm hv
  | some w => rw [← said_of_get? hget, h]

theorem get?_eq_none {members : List (String × Json)} (h : key ∉ members.map Prod.fst) :
    Fields.get? members key = none := by
  refine List.lookup_eq_none_iff.2 fun m hm => bne_iff_ne.2 fun heq => h ?_
  exact List.mem_map.2 ⟨m, hm, heq.symm⟩

theorem get?_of_tail {members : List (String × Json)}
    (hdistinct : (((k, v) :: members).map Prod.fst).Nodup) (h : Fields.get? members key = some w) :
    Fields.get? ((k, v) :: members) key = some w := by
  rw [Fields.get?_cons, if_neg, h]
  rintro rfl
  rw [get?_eq_none (List.nodup_cons.1 hdistinct).1] at h
  cases h

theorem depth_get? {members : List (String × Json)} (h : Fields.get? members key = some v) :
    v.depth ≤ depthMembers members := by
  induction members with
  | nil => cases h
  | cons m ms ih =>
      rw [Fields.get?_cons] at h
      rw [depthMembers]
      split at h
      · cases h
        exact Nat.le_max_left ..
      · exact (ih h).trans (Nat.le_max_right ..)

theorem depth_said (members : List (String × Json)) (key : String) :
    (said members key).depth ≤ depthMembers members := by
  cases hget : Fields.get? members key with
  | none =>
      rw [said, hget]
      exact Nat.zero_le _
  | some v =>
      rw [said_of_get? hget]
      exact depth_get? hget

theorem depth_item {items : List Json} (h : v ∈ items) : v.depth ≤ depthItems items := by
  induction h with
  | head => exact Nat.le_max_left ..
  | tail _ _ ih => exact ih.trans (Nat.le_max_right ..)

def Document.lastUnder (key : String) : List (Option String × Document) → Option Document
  | [] => none
  | (k, d) :: ms => (lastUnder key ms).or (if k = some key then some d else none)

theorem lastUnder_ofMembers {members : List (String × Json)} (h : (members.map Prod.fst).Nodup)
    (key : String) : lastUnder key (ofMembers members) = (Fields.get? members key).map ofJson := by
  induction members with
  | nil => rfl
  | cons m ms ih =>
      obtain ⟨k, v⟩ := m
      obtain ⟨hk, hms⟩ := List.nodup_cons.1 h
      rw [ofMembers, lastUnder, ih hms, Fields.get?_cons]
      by_cases hkey : key = k
      · subst hkey
        rw [if_pos rfl, if_pos rfl, get?_eq_none hk]
        rfl
      · rw [if_neg hkey, if_neg fun heq => hkey (Option.some.inj heq).symm, Option.or_none]

mutual

theorem isWhole_ofJson (v : Json) : (ofJson v).isWhole := by
  match v with
  | .null | .bool _ | .num _ | .str _ => rfl
  | .arr items =>
      rw [ofJson, isWhole, Bool.and_true]
      exact allWhole_ofItems items
  | .obj members =>
      rw [ofJson, isWhole, Bool.and_true]
      exact membersWhole_ofMembers members

theorem allWhole_ofItems (items : List Json) : allWhole (ofItems items) := by
  match items with
  | [] => rfl
  | v :: vs =>
      rw [ofItems, allWhole, isWhole_ofJson v, Bool.true_and]
      exact allWhole_ofItems vs

theorem membersWhole_ofMembers (members : List (String × Json)) :
    membersWhole (ofMembers members) := by
  match members with
  | [] => rfl
  | (_, v) :: ms =>
      rw [ofMembers, membersWhole, isWhole_ofJson v, Bool.true_and]
      exact membersWhole_ofMembers ms

end

namespace Decoder

variable {ρ α β : Type} {schema : List (Field ρ)} {room : Nat} {ms : List (String × Json)}

theorem option_string {v : Json} {s : Option String} (h : v = .ofOption .str s) :
    option string room (.ofJson v) = .ok s := by
  subst h
  cases s <;> rfl

theorem option_fields {v : Json} {fields : Option Fields} (h : v.merged = .ofOption .obj fields)
    (hdepth : v.depth < room) : option Decoder.fields room (.ofJson v) = .ok fields := by
  match v, fields, h with
  | .null, none, _ => rfl
  | .obj members, some _, h =>
      obtain ⟨henter, hinside⟩ := enter_of_lt hdepth
      cases h
      change (Decoder.fields room (.obj (ofMembers members) true)).map some = _
      rw [Decoder.fields, henter]
      change ((Decoder.members (room - 1) [] (ofMembers members) >>= _).map some) = _
      rw [members_ofMembers members hinside]
      rfl

theorem list_ofItems {decode : Decoder α} {items : List Json} {as : List α} (hroom : 1 < room)
    (h : List.Forall₂ (fun a v => decode (room - 1) (.ofJson v) = .ok a) as items) :
    list decode room (.ofJson (.arr items)) = .ok as := by
  have henter : Decoder.enter room = .ok (room - 1) := if_neg (Nat.not_le.2 hroom)
  have hitems : Decoder.items decode (room - 1) (ofItems items) = .ok as := by
    induction h with
    | nil => rfl
    | cons hv _ ih =>
        rw [ofItems, Decoder.items, hv, ih]
        rfl
  rw [Document.ofJson, Decoder.list, henter]
  change (Decoder.items decode (room - 1) (ofItems items) >>= _) = _
  rw [hitems]
  rfl

/-- Reading a field leaves a part of the record as it was. -/
def Field.Keeps (f : Field ρ) (part : ρ → α) : Prop :=
  ∀ room d r r', f.read room d r = .ok r' → part r' = part r

/-- A field can be read from an object, if it is there. -/
def Field.Takes (f : Field ρ) (room : Nat) (ms : List (String × Json)) : Prop :=
  ∀ v, Fields.get? ms f.name = some v → ∀ r, ∃ r', f.read room (.ofJson v) r = .ok r'

@[simp] theorem name_defaulted (name : String) (decode : Decoder β) (set : β → ρ → ρ) :
    (defaulted name decode set).name = name := rfl

@[simp] theorem keeps_defaulted {name : String} {decode : Decoder β} {set : β → ρ → ρ} {part : ρ → α}
    (h : ∀ b r, part (set b r) = part r) : (defaulted name decode set).Keeps part := by
  intro room d r r' hread
  change (decode room d).map (set · r) = .ok r' at hread
  cases hd : decode room d with
  | error e =>
      rw [hd] at hread
      cases hread
  | ok b =>
      rw [hd] at hread
      cases hread
      exact h b r

theorem takes_defaulted {name : String} {decode : Decoder β} {set : β → ρ → ρ}
    (h : decode room (.ofJson (said ms name)) = .ok b) :
    (defaulted name decode set).Takes room ms := by
  intro v hv r
  rw [name_defaulted] at hv
  rw [said_of_get? hv] at h
  refine ⟨set b r, ?_⟩
  change (decode room (.ofJson v)).map (set · r) = _
  rw [h]
  rfl

theorem Field.Takes.tail {f : Field ρ} (h : f.Takes room ((k, v) :: ms))
    (hdistinct : (((k, v) :: ms).map Prod.fst).Nodup) : f.Takes room ms :=
  fun _ hw => h _ (get?_of_tail hdistinct hw)

theorem exists_recordMembers {seen : List String} {r : ρ} (hdistinct : (ms.map Prod.fst).Nodup)
    (hnew : ∀ k ∈ ms.map Prod.fst, k ∉ seen) (htakes : ∀ f ∈ schema, f.Takes room ms) :
    ∃ out, recordMembers schema .skipped room seen r (ofMembers ms) = .ok out := by
  induction ms generalizing seen r with
  | nil => exact ⟨_, rfl⟩
  | cons m ms ih =>
      obtain ⟨k, v⟩ := m
      obtain ⟨hk, hms⟩ := List.nodup_cons.1 hdistinct
      have htail : ∀ f ∈ schema, f.Takes room ms := fun f hf => (htakes f hf).tail hdistinct
      rw [ofMembers, recordMembers]
      cases hfind : schema.find? (·.name == k) with
      | none =>
          simp only [others, isWhole_ofJson, if_true]
          exact ih hms (fun k' hk' => hnew k' (List.mem_cons_of_mem _ hk')) htail
      | some f =>
          have hname : f.name = k := by simpa using List.find?_some hfind
          obtain ⟨r', hread⟩ := htakes f (List.mem_of_find?_eq_some hfind) v
            (by rw [Fields.get?_cons, if_pos hname]) r
          have hfresh : ¬ seen.contains k := by simpa using hnew k (List.mem_cons_self ..)
          simp only [if_neg hfresh, hread]
          refine ih hms (fun k' hk' => ?_) htail
          rw [List.mem_cons, not_or]
          refine ⟨?_, hnew k' (List.mem_cons_of_mem _ hk')⟩
          rintro rfl
          exact hk hk'

section Parts

def Others.Keeps (rest : Others ρ) (part : ρ → α) : Prop :=
  ∀ room d key r r', others room d key r rest = .ok r' → part r' = part r

theorem Others.keeps_skipped (part : ρ → α) : Others.skipped.Keeps part := by
  intro room d key r r' h
  unfold others at h
  dsimp only at h
  split at h <;> cases h
  rfl

theorem Others.keeps_kept {keep : String → Json → ρ → ρ} {part : ρ → α}
    (h : ∀ k v r, part (keep k v r) = part r) : (Others.kept keep).Keeps part := by
  intro room d key r r' hread
  obtain ⟨v, _, rfl⟩ := exists_of_map_ok hread
  exact h key v r

variable {name : String} {decode : Decoder β} {set : β → ρ → ρ} {part : ρ → α} {made : β → α}

theorem recordMembers_reads {ms : List (Option String × Document)} {rest : Others ρ}
    {seen : List String} {r : ρ} {out : List String × ρ}
    (hfind : schema.find? (·.name == name) = some (defaulted name decode set))
    (hset : ∀ b r, part (set b r) = made b) (hkeeps : ∀ f ∈ schema, f.name ≠ name → f.Keeps part)
    (hrest : rest.Keeps part) (h : recordMembers schema rest room seen r ms = .ok out) :
    (lastUnder name ms).elim (.ok (part r)) (fun d => (decode room d).map made) = .ok (part out.2) ∧
      (name ∈ seen → lastUnder name ms = none) := by
  induction ms generalizing seen r with
  | nil =>
      cases h
      exact ⟨rfl, fun _ => rfl⟩
  | cons m ms ih =>
      obtain ⟨_ | k, d⟩ := m
      · cases h
      rw [recordMembers] at h
      rw [lastUnder]
      by_cases hk : k = name
      · subst hk
        rw [if_pos rfl]
        simp only [hfind] at h
        split at h
        · cases h
        rename_i hnew
        obtain ⟨r₁, hread, h⟩ := exists_of_bind_ok h
        obtain ⟨a, ha, rfl⟩ := exists_of_map_ok hread
        obtain ⟨hlater, hseen⟩ := ih h
        rw [hseen List.mem_cons_self] at hlater ⊢
        rw [Option.elim_none, hset] at hlater
        rw [Option.none_or, Option.elim_some, ha]
        refine ⟨hlater, fun hmem => absurd ?_ hnew⟩
        simpa using hmem
      · have hor : (lastUnder name ms).or (if some k = some name then some d else none) =
            lastUnder name ms := by
          rw [if_neg fun heq => hk (Option.some.inj heq), Option.or_none]
        rw [hor]
        cases hother : schema.find? (·.name == k) with
        | none =>
            simp only [hother] at h
            obtain ⟨r₁, hread, h⟩ := exists_of_bind_ok h
            rw [← hrest _ _ _ _ _ hread]
            exact ih h
        | some f =>
            have hf : f.name = k := by simpa using List.find?_some hother
            simp only [hother] at h
            split at h
            · cases h
            obtain ⟨r₁, hread, h⟩ := exists_of_bind_ok h
            rw [← hkeeps f (List.mem_of_find?_eq_some hother) (hf ▸ hk) _ _ _ _ hread]
            exact (ih h).imp_right fun hseen hmem => hseen (List.mem_cons_of_mem _ hmem)

theorem recordMembers_part {seen : List String} {r : ρ} {out : List String × ρ}
    (hfind : schema.find? (·.name == name) = some (defaulted name decode set))
    (hset : ∀ b r, part (set b r) = made b)
    (hkeeps : ∀ f ∈ schema, f.name ≠ name → f.Keeps part)
    (hdistinct : (ms.map Prod.fst).Nodup)
    (h : recordMembers schema .skipped room seen r (ofMembers ms) = .ok out) :
    (∀ v, Fields.get? ms name = some v →
        (decode room (.ofJson v)).map made = .ok (part out.2)) ∧
      (Fields.get? ms name = none → part out.2 = part r) := by
  have hreads := (recordMembers_reads hfind hset hkeeps (Others.keeps_skipped part) h).1
  rw [lastUnder_ofMembers hdistinct] at hreads
  refine ⟨fun v hv => ?_, fun hnone => ?_⟩
  · rw [hv] at hreads
    exact hreads
  · rw [hnone] at hreads
    exact (Except.ok.inj hreads).symm

end Parts

theorem record_ofJson {blank : ρ} (hroom : 1 < room) :
    record schema blank room (.ofJson (.obj ms)) =
      recordMembers schema .skipped (room - 1) [] blank (ofMembers ms) >>= fun (seen, r) =>
        if schema.all fun f => f.presence != .required || seen.contains f.name then .ok r
        else .error .mistyped := by
  have henter : enter room = .ok (room - 1) := if_neg (Nat.not_le.2 hroom)
  change recordObject schema .skipped blank room (.obj (ofMembers ms) true) = _
  rw [recordObject, henter]
  rfl

theorem exists_record {blank : ρ} (hroom : 1 < room) (hdistinct : (ms.map Prod.fst).Nodup)
    (hdefaulted : ∀ f ∈ schema, f.presence = .defaulted)
    (htakes : ∀ f ∈ schema, f.Takes (room - 1) ms) :
    ∃ r, record schema blank room (.ofJson (.obj ms)) = .ok r := by
  have hnew : ∀ k ∈ ms.map Prod.fst, k ∉ ([] : List String) := fun _ _ => List.not_mem_nil
  obtain ⟨⟨seen, r⟩, hread⟩ := exists_recordMembers (r := blank) hdistinct hnew htakes
  have hmay : schema.all fun f => f.presence != .required || seen.contains f.name := by
    refine List.all_eq_true.2 fun f hf => ?_
    rw [hdefaulted f hf]
    rfl
  refine ⟨r, ?_⟩
  rw [record_ofJson hroom, hread]
  exact if_pos hmay

/-- A part of a record is what its object says under the name of its field. Where the object says nothing,
null is read as what the record has without. -/
theorem record_part (name : String) (part : ρ → α) (made : β → α) {blank : ρ} {decode : Decoder β}
    {set : β → ρ → ρ} (hroom : 1 < room) (hdistinct : (ms.map Prod.fst).Nodup)
    (h : record schema blank room (.ofJson (.obj ms)) = .ok r)
    (hfind : schema.find? (·.name == name) = some (defaulted name decode set))
    (hsaid : decode (room - 1) (.ofJson (said ms name)) = .ok b)
    (hset : ∀ b r, part (set b r) = made b)
    (hkeeps : ∀ f ∈ schema, f.name ≠ name → f.Keeps part)
    (hnull : Fields.get? ms name = none → (decode (room - 1) .null).map made = .ok (part blank)) :
    part r = made b := by
  have hmade : (decode (room - 1) (.ofJson (said ms name))).map made = .ok (made b) := by
    rw [hsaid]
    rfl
  rw [record_ofJson hroom] at h
  cases hread : recordMembers schema .skipped (room - 1) [] blank (ofMembers ms) with
  | error e =>
      rw [hread] at h
      cases h
  | ok out =>
      rw [hread] at h
      obtain rfl : out.2 = r := by
        change (if _ then Except.ok out.2 else _) = _ at h
        split at h <;> cases h
        rfl
      obtain ⟨hthere, hmissing⟩ := recordMembers_part hfind hset hkeeps hdistinct hread
      cases hget : Fields.get? ms name with
      | none =>
          rw [said, hget] at hmade
          rw [hmissing hget]
          exact Except.ok.inj ((hnull hget).symm.trans hmade)
      | some v =>
          rw [said_of_get? hget] at hmade
          exact Except.ok.inj ((hthere v hget).symm.trans hmade)

theorem record_field (name : String) (part : ρ → α) {blank : ρ} {decode : Decoder α}
    {set : α → ρ → ρ} (hroom : 1 < room) (hdistinct : (ms.map Prod.fst).Nodup)
    (h : record schema blank room (.ofJson (.obj ms)) = .ok r)
    (hsaid : decode (room - 1) (.ofJson (said ms name)) = .ok a)
    (hnull : Fields.get? ms name = none → decode (room - 1) .null = .ok (part blank))
    (hfind : schema.find? (·.name == name) = some (defaulted name decode set))
    (hset : ∀ a r, part (set a r) = a) (hkeeps : ∀ f ∈ schema, f.name ≠ name → f.Keeps part) :
    part r = a := by
  refine record_part name part id hroom hdistinct h hfind hsaid hset hkeeps fun hnone => ?_
  rw [hnull hnone]
  rfl

theorem record_single {name : String} {decode : Decoder β} {made : β → ρ} {blank : ρ}
    (hroom : 1 < room) (hdistinct : (ms.map Prod.fst).Nodup)
    (hsaid : decode (room - 1) (.ofJson (said ms name)) = .ok b)
    (hnull : (decode (room - 1) .null).map made = .ok blank) :
    record [defaulted name decode fun b _ => made b] blank room (.ofJson (.obj ms)) =
      .ok (made b) := by
  obtain ⟨r, hr⟩ : ∃ r, record [defaulted name decode fun b _ => made b] blank room
      (.ofJson (.obj ms)) = .ok r := by
    refine exists_record hroom hdistinct (by simp [defaulted]) ?_
    simp only [List.forall_mem_cons]
    exact ⟨takes_defaulted hsaid, by simp⟩
  have hpart : id r = made b := record_part name id made hroom hdistinct hr (by simp) hsaid
    (fun _ _ => rfl) (by simp) fun _ => hnull
  rw [hr, ← hpart, id]

end Decoder

end Json

end Advisor

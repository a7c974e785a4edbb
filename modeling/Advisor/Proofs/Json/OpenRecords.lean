import Advisor.Proofs.Json.Settled
import Mathlib.Data.List.Nodup

/-!
Records and the documents they are read from. A field is what the document gives for it, a record that is
open keeps every other key with the value it was given, and both are read back from what they are written
as.
-/

namespace Advisor.Json

open Document

section Given

def Document.under (key : String) : Document → Option Document
  | .obj ms _ => lastUnder key ms
  | _ => none

/-- What a document gives for a field of a record, of which these are the names: under its name in an
object, at its place in an array. -/
def Document.given? (names : List String) (name : String) : Document → Option Document
  | .arr ds _ => (names.zip ds).lookup name
  | d => d.under name

def Document.items : Document → List Document
  | .arr ds _ => ds
  | _ => []

/-- Under the key stands the value that the document gives there, once, and nothing if it gives none. -/
structure Carries (room : Nat) (d : Document) (fs : List (String × Json)) (key : String) : Prop where
  once : ∀ given, d.under key = some given →
    ∃ v, Decoder.value room given = .ok v ∧ fs.filter (·.1 == key) = [(key, v)]
  nothing : d.under key = none → key ∉ fs.map Prod.fst

/-- An object that has no key twice, and every key of a document but the ones named. -/
def Preserves (room : Nat) (names : List String) (d : Document) (v : Json) : Prop :=
  ∃ fs, v = .obj fs ∧ (fs.map Prod.fst).Nodup ∧ ∀ key ∉ names, Carries room d fs key

/-- What an open record with these names keeps of a document. -/
structure Kept (room : Nat) (names : List String) (d : Document) (fs : Fields) : Prop where
  roomy : 1 < room
  settled : fs.Settled (room - 1)
  strange : ∀ m ∈ fs, m.1 ∉ names
  carries : ∀ key ∉ names, Carries (room - 1) d fs key

variable {room : Nat} {ms : List (Option String × Document)} {fs : Fields} {key : String}

theorem Carries.append {d : Document} (h : Carries room d fs key) {front : List (String × Json)}
    (hkey : key ∉ front.map Prod.fst) : Carries room d (front ++ fs) key := by
  have hfront : front.filter (·.1 == key) = [] :=
    List.filter_eq_nil_iff.2 fun m hm heq => hkey (List.mem_map.2 ⟨m, hm, beq_iff_eq.1 heq⟩)
  refine ⟨fun d hd => ?_, fun hnone => ?_⟩
  · obtain ⟨v, hv, honce⟩ := h.once d hd
    exact ⟨v, hv, by rw [List.filter_append, hfront, honce, List.nil_append]⟩
  · rw [List.map_append, List.mem_append, not_or]
    exact ⟨hkey, h.nothing hnone⟩

theorem Kept.preserves {names : List String} {d : Document} (h : Kept room names d fs)
    {own : List (String × Json)} (hown : own.map Prod.fst = names) (hdistinct : names.Nodup) :
    Preserves (room - 1) names d (.obj (own ++ fs)) := by
  refine ⟨own ++ fs, rfl, ?_, fun key hkey => (h.carries key hkey).append (hown ▸ hkey)⟩
  rw [List.map_append, hown]
  refine List.nodup_append'.2 ⟨hdistinct, h.settled.nodup, fun key hname hkey => ?_⟩
  obtain ⟨m, hm, rfl⟩ := List.mem_map.1 hkey
  exact h.strange m hm hname

namespace Decoder

theorem members_under {done : Fields} (h : members room done ms = .ok fs) (key : String) :
    (∀ d, lastUnder key ms = some d → ∃ v, value room d = .ok v ∧ Fields.get? fs key = some v) ∧
      (lastUnder key ms = none → Fields.get? fs key = Fields.get? done key) := by
  induction ms generalizing done with
  | nil =>
      cases h
      exact ⟨fun d hd => (by cases hd), fun _ => rfl⟩
  | cons m ms ih =>
      obtain ⟨_ | k, d⟩ := m
      · cases h
      rw [members] at h
      obtain ⟨v, hv, h⟩ := exists_of_bind_ok h
      obtain ⟨hlater, hnever⟩ := ih h
      rw [lastUnder]
      cases hlast : lastUnder key ms with
      | some d' =>
          rw [Option.some_or]
          refine ⟨?_, fun hnone => by cases hnone⟩
          rintro _ ⟨⟩
          exact hlater d' hlast
      | none =>
          have hget := hnever hlast
          rw [Fields.get?_insert] at hget
          rw [Option.none_or]
          by_cases hkey : key = k
          · subst hkey
            rw [if_pos rfl] at hget ⊢
            refine ⟨?_, fun hnone => by cases hnone⟩
            rintro _ ⟨⟩
            exact ⟨v, hv, hget⟩
          · rw [if_neg hkey] at hget
            rw [if_neg fun heq => hkey (Option.some.inj heq).symm]
            exact ⟨fun _ hd => (by cases hd), fun _ => hget⟩

theorem carries_members (h : members room [] ms = .ok fs) (closed : Bool) (key : String) :
    Carries room (.obj ms closed) fs key := by
  have hsettled := settled_members ms h .nil
  obtain ⟨hthere, hmissing⟩ := members_under h key
  refine ⟨fun d hd => ?_, fun hnone hkey => ?_⟩
  · obtain ⟨v, hv, hget⟩ := hthere d hd
    exact ⟨v, hv, Fields.filter_eq_of_get? hsettled.nodup hget⟩
  · obtain ⟨m, hm, rfl⟩ := List.mem_map.1 hkey
    have hne := List.lookup_eq_none_iff.1 (hmissing hnone) m hm
    rw [bne_self_eq_false] at hne
    cases hne

variable {ρ α : Type} {schema : List (Field ρ)} {rest : Others ρ}

def strangers (names : List String) (ms : List (Option String × Document)) :
    List (Option String × Document) :=
  ms.filter fun m => m.1.all fun k => !names.contains k

theorem lastUnder_strangers {names : List String} (key : String) (ms : List (Option String × Document)) :
    lastUnder key (strangers names ms) = if key ∈ names then none else lastUnder key ms := by
  induction ms with
  | nil => exact (ite_self none).symm
  | cons m ms ih =>
      obtain ⟨k, d⟩ := m
      rw [lastUnder]
      by_cases hk : k = some key
      · subst hk
        by_cases hkey : key ∈ names
        · rw [strangers, List.filter_cons_of_neg (by simpa using hkey)]
          rw [if_pos hkey] at ih ⊢
          exact ih
        · rw [strangers, List.filter_cons_of_pos (by simpa using hkey), lastUnder]
          rw [if_neg hkey] at ih ⊢
          exact congrArg (Option.or · _) ih
      · rw [if_neg hk, Option.or_none, ← ih, strangers, List.filter_cons]
        split
        · rw [lastUnder, if_neg hk, Option.or_none]
          rfl
        · rfl

theorem find?_name {k : String} : schema.find? (·.name == k) = none ↔ k ∉ schema.map (·.name) := by
  simp [List.find?_eq_none]

/-- What an open record keeps is what an object of the other members is read as. -/
theorem recordMembers_kept {keep : String → Json → ρ → ρ} {extra : ρ → Fields} {seen : List String}
    {r : ρ} {out : List String × ρ} (hkeep : ∀ k v r, extra (keep k v r) = (extra r).insert k v)
    (hfields : ∀ f ∈ schema, f.Keeps extra)
    (h : recordMembers schema (.kept keep) room seen r ms = .ok out) :
    members room (extra r) (strangers (schema.map (·.name)) ms) = .ok (extra out.2) := by
  induction ms generalizing seen r with
  | nil =>
      cases h
      rfl
  | cons m ms ih =>
      obtain ⟨_ | k, d⟩ := m
      · cases h
      rw [recordMembers] at h
      cases hfind : schema.find? (·.name == k) with
      | none =>
          have hk := find?_name.1 hfind
          rw [hfind] at h
          obtain ⟨r₁, hread, h⟩ := exists_of_bind_ok h
          obtain ⟨v, hv, rfl⟩ := exists_of_map_ok hread
          rw [strangers, List.filter_cons_of_pos (by simpa using hk), members, hv]
          change members room ((extra r).insert k v) _ = _
          rw [← hkeep]
          exact ih h
      | some f =>
          have hmem := List.mem_of_find?_eq_some hfind
          have hname : f.name = k := by simpa using List.find?_some hfind
          simp only [hfind] at h
          split at h
          · cases h
          obtain ⟨r₁, hread, h⟩ := exists_of_bind_ok h
          have hk : k ∈ schema.map (·.name) := List.mem_map.2 ⟨f, hmem, hname⟩
          rw [strangers, List.filter_cons_of_neg (by simpa using hk), ← hfields f hmem _ _ _ _ hread]
          exact ih h

variable {name : String} {decode : Decoder α} {set : α → ρ → ρ} {part : ρ → α}

theorem recordItems_keeps {ds : List Document} {closed : Bool} {r r' : ρ}
    (hkeeps : ∀ f ∈ schema, f.Keeps part) (h : recordItems schema room r ds closed = .ok r') :
    part r' = part r := by
  induction ds generalizing schema r with
  | nil =>
      rw [recordItems] at h
      split at h
      · cases h
      split at h <;> cases h
      rfl
  | cons d ds ih =>
      cases schema with
      | nil => cases h
      | cons f fields =>
          obtain ⟨hf, hfields⟩ := List.forall_mem_cons.1 hkeeps
          rw [recordItems] at h
          obtain ⟨r₁, hread, h⟩ := exists_of_bind_ok h
          rw [ih hfields h, hf _ _ _ _ hread]

theorem recordMembers_keeps {seen : List String} {r : ρ} {out : List String × ρ}
    (hkeeps : ∀ f ∈ schema, f.Keeps part) (hrest : rest.Keeps part)
    (h : recordMembers schema rest room seen r ms = .ok out) : part out.2 = part r := by
  induction ms generalizing seen r with
  | nil =>
      cases h
      rfl
  | cons m ms ih =>
      obtain ⟨_ | k, d⟩ := m
      · cases h
      rw [recordMembers] at h
      cases hfind : schema.find? (·.name == k) with
      | none =>
          simp only [hfind] at h
          obtain ⟨r₁, hread, hlater⟩ := exists_of_bind_ok h
          rw [ih hlater, hrest _ _ _ _ _ hread]
      | some f =>
          simp only [hfind] at h
          split at h
          · cases h
          obtain ⟨r₁, hread, hlater⟩ := exists_of_bind_ok h
          rw [ih hlater, hkeeps f (List.mem_of_find?_eq_some hfind) _ _ _ _ hread]

theorem recordItems_given {ds : List Document} {closed : Bool} {r r' : ρ}
    (hfind : schema.find? (·.name == name) = some (defaulted name decode set))
    (hset : ∀ a r, part (set a r) = a) (hkeeps : ∀ f ∈ schema, f.name ≠ name → f.Keeps part)
    (hdistinct : (schema.map (·.name)).Nodup) (h : recordItems schema room r ds closed = .ok r') :
    (((schema.map (·.name)).zip ds).lookup name).elim (.ok (part r)) (decode room) =
      .ok (part r') := by
  induction ds generalizing schema r with
  | nil =>
      rw [recordItems] at h
      split at h
      · cases h
      split at h <;> cases h
      rw [List.zip_nil_right]
      rfl
  | cons d ds ih =>
      cases schema with
      | nil => cases h
      | cons f fields =>
          rw [recordItems] at h
          obtain ⟨r₁, hread, hrun⟩ := exists_of_bind_ok h
          obtain ⟨hf, hfields⟩ := List.nodup_cons.1 hdistinct
          obtain ⟨hkeep, hothers⟩ := List.forall_mem_cons.1 hkeeps
          rw [List.map_cons, List.zip_cons_cons, List.lookup_cons]
          by_cases hname : f.name = name
          · rw [List.find?_cons_of_pos (by simpa using hname)] at hfind
            cases hfind
            have hlater : part r' = part r₁ := by
              refine recordItems_keeps (fun g hg => hothers g hg fun heq => hf ?_) hrun
              exact List.mem_map.2 ⟨g, hg, heq⟩
            obtain ⟨a, ha, rfl⟩ := exists_of_map_ok hread
            rw [name_defaulted, beq_self_eq_true, hlater, hset, ← ha]
            rfl
          · rw [List.find?_cons_of_neg (by simpa using hname)] at hfind
            rw [beq_eq_false_iff_ne.2 (Ne.symm hname), ← hkeep hname _ _ _ _ hread]
            exact ih hfind hothers hfields hrun

theorem recordObject_ok {blank r : ρ} {d : Document}
    (h : recordObject schema rest blank room d = .ok r) :
    ∃ ms seen, d = .obj ms true ∧ 1 < room ∧
      recordMembers schema rest (room - 1) [] blank ms = .ok (seen, r) := by
  unfold recordObject at h
  split at h
  · rename_i ms closed
    obtain ⟨inside, henter, hinside⟩ := exists_of_bind_ok h
    obtain ⟨⟨seen, r₁⟩, hread, hends⟩ := exists_of_bind_ok hinside
    obtain ⟨_, hclosed, hall⟩ := exists_of_bind_ok hends
    obtain ⟨hroom, rfl⟩ := of_enter henter
    rw [closing_ok hclosed]
    split at hall <;> cases hall
    exact ⟨ms, seen, rfl, hroom, hread⟩
  · cases h

theorem recordObject_given (name : String) (part : ρ → α) {blank r : ρ} {d : Document}
    (h : recordObject schema rest blank room d = .ok r)
    (hfind : schema.find? (·.name == name) = some (defaulted name decode set))
    (hset : ∀ a r, part (set a r) = a) (hkeeps : ∀ f ∈ schema, f.name ≠ name → f.Keeps part)
    (hrest : rest.Keeps part) :
    (d.under name).elim (.ok (part blank)) (decode (room - 1)) = .ok (part r) := by
  obtain ⟨ms, seen, rfl, _, hread⟩ := recordObject_ok h
  have hid : ∀ a r, part (set a r) = id a := hset
  have hreads := (recordMembers_reads hfind hid hkeeps hrest hread).1
  simp only [Except.map_id, id] at hreads
  exact hreads

theorem openRecord_kept {keep : String → Json → ρ → ρ} {extra : ρ → Fields} {blank r : ρ}
    {d : Document} (hkeep : ∀ k v r, extra (keep k v r) = (extra r).insert k v)
    (hfields : ∀ f ∈ schema, f.Keeps extra) (hblank : extra blank = [])
    (h : openRecord schema keep blank room d = .ok r) :
    Kept room (schema.map (·.name)) d (extra r) := by
  obtain ⟨ms, seen, rfl, hroom, hread⟩ := recordObject_ok h
  have hmembers := recordMembers_kept hkeep hfields hread
  rw [hblank] at hmembers
  have hcarries := carries_members hmembers true
  have hunder : ∀ key ∉ schema.map (·.name),
      under key (.obj (strangers (schema.map (·.name)) ms) true) = under key (.obj ms true) :=
    fun key hkey => (lastUnder_strangers key ms).trans (if_neg hkey)
  refine ⟨hroom, settled_members _ hmembers .nil, fun m hm hname => ?_, fun key hkey => ?_⟩
  · refine (hcarries m.1).nothing ?_ (List.mem_map.2 ⟨m, hm, rfl⟩)
    exact (lastUnder_strangers m.1 ms).trans (if_pos hname)
  · have hkept := hcarries key
    refine ⟨fun given hgiven => hkept.once given ?_, fun hnone => hkept.nothing ?_⟩
    · rw [hunder key hkey, hgiven]
    · rw [hunder key hkey, hnone]

theorem fields_kept {d : Document} (h : fields room d = .ok fs) : Kept room [] d fs := by
  unfold fields at h
  split at h
  · obtain ⟨inside, henter, hinside⟩ := exists_of_bind_ok h
    obtain ⟨fs, hmembers, hends⟩ := exists_of_bind_ok hinside
    obtain ⟨_, _, hread⟩ := exists_of_bind_ok hends
    cases hread
    obtain ⟨hroom, rfl⟩ := of_enter henter
    exact ⟨hroom, settled_members _ hmembers .nil, fun _ _ => List.not_mem_nil,
      fun key _ => carries_members hmembers _ key⟩
  · cases h

theorem option_ok {decode : Decoder α} {d : Document} {o : Option α}
    (h : option decode room d = .ok o) :
    d = .null ∧ o = none ∨ ∃ a, decode room d = .ok a ∧ o = some a := by
  unfold option at h
  split at h
  · cases h
    exact .inl ⟨rfl, rfl⟩
  · obtain ⟨a, ha, rfl⟩ := exists_of_map_ok h
    exact .inr ⟨a, ha, rfl⟩

theorem items_ok {decode : Decoder α} {ds : List Document} {as : List α}
    (h : items decode room ds = .ok as) : List.Forall₂ (fun d a => decode room d = .ok a) ds as := by
  induction ds generalizing as with
  | nil =>
      cases h
      exact .nil
  | cons d ds ih =>
      rw [items] at h
      obtain ⟨a, ha, hrest⟩ := exists_of_bind_ok h
      obtain ⟨rest, hitems, hread⟩ := exists_of_bind_ok hrest
      cases hread
      exact .cons ha (ih hitems)

theorem list_ok {decode : Decoder α} {d : Document} {as : List α} (h : list decode room d = .ok as) :
    List.Forall₂ (fun d a => decode (room - 1) d = .ok a) d.items as := by
  unfold list at h
  split at h
  · obtain ⟨inside, henter, hinside⟩ := exists_of_bind_ok h
    obtain ⟨values, hitems, hends⟩ := exists_of_bind_ok hinside
    obtain ⟨_, _, hread⟩ := exists_of_bind_ok hends
    cases hread
    obtain ⟨_, rfl⟩ := of_enter henter
    exact items_ok hitems
  · cases h

theorem record_given (name : String) (part : ρ → α) {blank r : ρ} {d : Document}
    (h : record schema blank room d = .ok r)
    (hfind : schema.find? (·.name == name) = some (defaulted name decode set))
    (hset : ∀ a r, part (set a r) = a) (hkeeps : ∀ f ∈ schema, f.name ≠ name → f.Keeps part)
    (hdistinct : (schema.map (·.name)).Nodup) :
    (d.given? (schema.map (·.name)) name).elim (.ok (part blank)) (decode (room - 1)) =
      .ok (part r) := by
  unfold record at h
  split at h
  · obtain ⟨inside, henter, h⟩ := exists_of_bind_ok h
    obtain ⟨_, rfl⟩ := of_enter henter
    exact recordItems_given hfind hset hkeeps hdistinct h
  · obtain ⟨ms, _, rfl, _⟩ := recordObject_ok h
    exact recordObject_given name part h hfind hset hkeeps (Others.keeps_skipped part)

theorem record_keeps {blank r : ρ} {d : Document} (h : record schema blank room d = .ok r)
    (hkeeps : ∀ f ∈ schema, f.Keeps part) : part r = part blank := by
  unfold record at h
  split at h
  · obtain ⟨inside, _, hitems⟩ := exists_of_bind_ok h
    exact recordItems_keeps hkeeps hitems
  · obtain ⟨ms, _, _, _, hread⟩ := recordObject_ok h
    exact recordMembers_keeps hkeeps (Others.keeps_skipped part) hread

end Decoder

end Given

namespace Decoder

section Filling

variable {ρ : Type} {schema : List (Field ρ)} {rest : Others ρ} {room : Nat}

theorem read_defaulted {α : Type} {name : String} {decode : Decoder α} {set : α → ρ → ρ}
    {d : Document} {a : α} {r : ρ} (h : decode room d = .ok a) :
    (defaulted name decode set).read room d r = .ok (set a r) := by
  change (decode room d).map (set · r) = _
  rw [h]
  rfl

theorem option_double (x : Option Float) :
    option double room (.ofJson (.ofOption .ofFloat x)) = .ok x := by
  cases x <;> rfl

theorem natural_le {d : Document} {n : Nat} (h : natural room d = .ok n) :
    n ≤ 18446744073709551615 := by
  obtain ⟨i, hi, rfl⟩ := exists_of_map_ok h
  unfold integer at hi
  split at hi
  · split at hi <;> cases hi
    omega
  · cases hi

theorem natural_ofNat {n : Nat} (h : n ≤ 18446744073709551615) :
    natural room (.ofJson (.ofNat n)) = .ok n := by
  have hrange : (0 : Int) ≤ n ∧ (n : Int) ≤ 18446744073709551615 := by omega
  change (if _ then Except.ok (n : Int) else _).map Int.toNat = _
  rw [if_pos hrange]
  rfl

/-- Members that fill the fields of a record, each in its place. -/
inductive Fills (room : Nat) : List (Field ρ) → ρ → List (String × Json) → ρ → Prop
  | nil : Fills room [] r [] r
  | cons {f : Field ρ} {own : List (Field ρ)} {v : Json} {ms : List (String × Json)} {r r₁ r₂ : ρ}
      (hread : f.read room (.ofJson v) r = .ok r₁) (h : Fills room own r₁ ms r₂) :
      Fills room (f :: own) r ((f.name, v) :: ms) r₂

theorem find?_of_mem (hdistinct : (schema.map (·.name)).Nodup) {f : Field ρ} (hf : f ∈ schema) :
    schema.find? (·.name == f.name) = some f := by
  cases hfind : schema.find? (·.name == f.name) with
  | none => exact absurd (List.mem_map.2 ⟨f, hf, rfl⟩) (find?_name.1 hfind)
  | some g =>
      have hname : g.name = f.name := by simpa using List.find?_some hfind
      rw [List.inj_on_of_nodup_map hdistinct (List.mem_of_find?_eq_some hfind) hf hname]

theorem ofMembers_append (ms more : List (String × Json)) :
    ofMembers (ms ++ more) = ofMembers ms ++ ofMembers more := by
  induction ms with
  | nil => rfl
  | cons m ms ih =>
      obtain ⟨key, v⟩ := m
      rw [List.cons_append, ofMembers, ofMembers, ih, List.cons_append]

theorem recordMembers_fills (rest : Others ρ) {own : List (Field ρ)} {r r' : ρ} {ms : List (String × Json)}
    (h : Fills room own r ms r') (hdistinct : (own.map (·.name)).Nodup)
    (hfind : ∀ f ∈ own, schema.find? (·.name == f.name) = some f) {seen : List String}
    (hnew : ∀ f ∈ own, f.name ∉ seen) (tail : List (Option String × Document)) :
    ∃ seen', recordMembers schema rest room seen r (ofMembers ms ++ tail) =
      recordMembers schema rest room seen' r' tail := by
  induction h generalizing seen with
  | nil => exact ⟨seen, rfl⟩
  | @cons f own _ _ _ _ _ hread _ ih =>
      obtain ⟨hf, hown⟩ := List.nodup_cons.1 hdistinct
      obtain ⟨hthis, hlater⟩ := List.forall_mem_cons.1 hfind
      obtain ⟨hfresh, hnew⟩ := List.forall_mem_cons.1 hnew
      have hunseen : ∀ g ∈ own, g.name ∉ f.name :: seen := by
        intro g hg hmem
        rcases List.mem_cons.1 hmem with heq | hmem
        · exact hf (List.mem_map.2 ⟨g, hg, heq⟩)
        · exact hnew g hg hmem
      obtain ⟨seen', htail⟩ := ih hown hlater hunseen
      refine ⟨seen', ?_⟩
      rw [ofMembers, List.cons_append, recordMembers, hthis]
      dsimp only
      rw [if_neg (by simpa using hfresh), hread]
      exact htail

theorem recordMembers_skipped {seen : List String} {r : ρ} {ms : List (String × Json)}
    (h : ∀ m ∈ ms, m.1 ∉ schema.map (·.name)) :
    recordMembers schema .skipped room seen r (ofMembers ms) = .ok (seen, r) := by
  induction ms with
  | nil => rfl
  | cons m ms ih =>
      obtain ⟨key, v⟩ := m
      obtain ⟨hkey, hms⟩ := List.forall_mem_cons.1 h
      rw [ofMembers, recordMembers, find?_name.2 hkey]
      simp only [others, isWhole_ofJson, if_true]
      exact ih hms

theorem recordMembers_strangers {keep : String → Json → ρ → ρ} {put : Fields → ρ}
    (hkeep : ∀ k v fs, keep k v (put fs) = put (fs.insert k v)) {seen : List String} {done : Fields}
    {ms : List (String × Json)} (h : ∀ m ∈ ms, m.1 ∉ schema.map (·.name)) :
    recordMembers schema (.kept keep) room seen (put done) (ofMembers ms) =
      (members room done (ofMembers ms)).map fun fs => (seen, put fs) := by
  induction ms generalizing done with
  | nil => rfl
  | cons m ms ih =>
      obtain ⟨key, v⟩ := m
      obtain ⟨hkey, hms⟩ := List.forall_mem_cons.1 h
      rw [ofMembers, recordMembers, find?_name.2 hkey, members]
      dsimp only
      rw [others]
      cases hv : value room (.ofJson v) with
      | error e => rfl
      | ok w =>
          change recordMembers schema (.kept keep) room seen (keep key w (put done)) (ofMembers ms) = _
          rw [hkeep]
          exact ih hms

theorem recordObject_ofJson {blank r : ρ} {ms : List (String × Json)} {seen : List String}
    (hroom : 1 < room) (hdefaulted : ∀ f ∈ schema, f.presence = .defaulted)
    (h : recordMembers schema rest (room - 1) [] blank (ofMembers ms) = .ok (seen, r)) :
    recordObject schema rest blank room (.ofJson (.obj ms)) = .ok r := by
  have henter : enter room = .ok (room - 1) := if_neg (Nat.not_le.2 hroom)
  have hall : schema.all fun f => f.presence != .required || seen.contains f.name := by
    refine List.all_eq_true.2 fun f hf => ?_
    rw [hdefaulted f hf]
    rfl
  rw [Document.ofJson, recordObject, henter]
  change (recordMembers schema rest (room - 1) [] blank (ofMembers ms) >>= _) = _
  rw [h]
  exact if_pos hall

variable {blank : ρ} {ms : List (String × Json)} (hroom : 1 < room)
  (hdefaulted : ∀ f ∈ schema, f.presence = .defaulted) (hdistinct : (schema.map (·.name)).Nodup)

include hroom hdefaulted hdistinct

theorem record_fills {r : ρ} (h : Fills (room - 1) schema blank ms r) {more : List (String × Json)}
    (hmore : ∀ m ∈ more, m.1 ∉ schema.map (·.name)) :
    record schema blank room (.ofJson (.obj (ms ++ more))) = .ok r := by
  obtain ⟨seen, hfilled⟩ := recordMembers_fills .skipped h hdistinct
    (fun f hf => find?_of_mem hdistinct hf) (fun f _ => List.not_mem_nil) (ofMembers more)
  rw [recordMembers_skipped hmore, ← ofMembers_append] at hfilled
  exact recordObject_ofJson hroom hdefaulted hfilled

theorem openRecord_fills {keep : String → Json → ρ → ρ} {r : ρ} {fs : Fields} (put : Fields → ρ)
    (hput : put fs = r) (hkeep : ∀ k v fs, keep k v (put fs) = put (fs.insert k v))
    (h : Fills (room - 1) schema blank ms (put [])) (hfs : fs.Settled (room - 1))
    (hstrange : ∀ m ∈ fs, m.1 ∉ schema.map (·.name)) :
    openRecord schema keep blank room (.ofJson (.obj (ms ++ fs))) = .ok r := by
  subst hput
  obtain ⟨seen, hfilled⟩ := recordMembers_fills (.kept keep) h hdistinct
    (fun f hf => find?_of_mem hdistinct hf) (fun f _ => List.not_mem_nil) (ofMembers fs)
  rw [recordMembers_strangers hkeep hstrange, members_inOrder le_rfl [] fs hfs.inOrder hfs.values,
    ← ofMembers_append] at hfilled
  exact recordObject_ofJson hroom hdefaulted hfilled

end Filling

end Decoder

end Advisor.Json

import Advisor.Cache
import Mathlib.Data.Finset.Card
import Mathlib.Data.List.Nodup

/-!
A cache against the journal of everything that was ever put into it. Entries go while others are put in,
but who asks for a key cannot tell.
-/

namespace Advisor.Cache

variable {κ ν : Type}

structure Insertion (κ ν : Type) where
  instant : Nat
  key : κ
  value : ν
  lifetime : Nat

def Insertion.entry (i : Insertion κ ν) : Nat × ν := (i.instant + i.lifetime, i.value)

abbrev Journal (κ ν : Type) := List (Insertion κ ν)

inductive Deed (κ ν : Type)
  | insert (key : κ) (value : ν) (lifetime : Nat)
  | get (key : κ)
  | size

inductive Answer (ν : Type)
  | done
  | found (value : Option ν)
  | counted (n : Nat)
  deriving DecidableEq

def Answer.found? : Answer ν → Option (Option ν)
  | found value => some value
  | _ => none

variable [DecidableEq κ]

namespace Journal

def latest? (j : Journal κ ν) (key : κ) : Option (Insertion κ ν) :=
  j.find? (·.key = key)

/-- The latest insertion of a key counts, and only until it expires. -/
def get? (j : Journal κ ν) (now : Nat) (key : κ) : Option ν :=
  match j.latest? key with
  | some i => if now < i.instant + i.lifetime then some i.value else none
  | none => none

/-- The keys that an instant finds something under. -/
def fresh (j : Journal κ ν) (now : Nat) : Finset κ :=
  (j.map (·.key)).toFinset.filter fun key => (j.get? now key).isSome

/-- One for the last insertion, and one for each other key that was fresh then. -/
def size : Journal κ ν → Nat
  | [] => 0
  | i :: earlier => 1 + ((fresh earlier i.instant).erase i.key).card

def perform (now : Nat) (j : Journal κ ν) : Deed κ ν → Journal κ ν × Answer ν
  | .insert key value lifetime => (⟨now, key, value, lifetime⟩ :: j, .done)
  | .get key => (j, .found (j.get? now key))
  | .size => (j, .counted j.size)

def answers (j : Journal κ ν) : List (Nat × Deed κ ν) → List (Answer ν)
  | [] => []
  | (now, deed) :: deeds => (perform now j deed).2 :: answers (perform now j deed).1 deeds

theorem latest?_cons_self (i : Insertion κ ν) (j : Journal κ ν) :
    latest? (i :: j) i.key = some i :=
  List.find?_cons_of_pos (by simp)

theorem latest?_cons_of_ne {i : Insertion κ ν} {key : κ} (h : key ≠ i.key) (j : Journal κ ν) :
    latest? (i :: j) key = latest? j key :=
  List.find?_cons_of_neg (by simpa using Ne.symm h)

theorem get?_isSome {j : Journal κ ν} {now : Nat} {key : κ} :
    (j.get? now key).isSome ↔ ∃ i, j.latest? key = some i ∧ now < i.instant + i.lifetime := by
  unfold get?
  cases j.latest? key with
  | none => simp
  | some i => by_cases h : now < i.instant + i.lifetime <;> simp [h]

theorem mem_fresh {j : Journal κ ν} {now : Nat} {key : κ} :
    key ∈ j.fresh now ↔ ∃ i, j.latest? key = some i ∧ now < i.instant + i.lifetime := by
  rw [fresh, Finset.mem_filter, get?_isSome, List.mem_toFinset]
  refine ⟨fun h => h.2, fun h => ⟨?_, h⟩⟩
  obtain ⟨i, hi, -⟩ := h
  have hkey : i.key = key := by simpa using List.find?_some hi
  exact List.mem_map.2 ⟨i, List.mem_of_find?_eq_some hi, hkey⟩

end Journal

abbrev Put (κ ν : Type) := Cache κ ν → Nat → κ → ν → Nat → Cache κ ν

/-- Of the other keys' entries those stay that `keeps` holds of at the instant. -/
def keeping (keeps : Nat → κ × Nat × ν → Bool) : Put κ ν := fun c now key value lifetime =>
  ⟨(key, now + lifetime, value) :: c.entries.filter fun e => e.1 ≠ key ∧ keeps now e⟩

def perform (put : Put κ ν) (now : Nat) (c : Cache κ ν) : Deed κ ν → Cache κ ν × Answer ν
  | .insert key value lifetime => (put c now key value lifetime, .done)
  | .get key => (c, .found (c.get? now key))
  | .size => (c, .counted c.size)

def answers (put : Put κ ν) (c : Cache κ ν) : List (Nat × Deed κ ν) → List (Answer ν)
  | [] => []
  | (now, deed) :: deeds => (perform put now c deed).2 :: answers put (perform put now c deed).1 deeds

theorem insert_eq_keeping :
    (insert : Put κ ν) = keeping fun now e => decide (now < e.2.1) := by
  funext c now key value lifetime
  simp [insert, keeping]

/-- What stands in a cache is the latest of its key, and what may still be fresh stands in it. -/
structure Mirrors (since : Nat) (j : Journal κ ν) (c : Cache κ ν) : Prop where
  distinct : (c.entries.map Prod.fst).Nodup
  latest : ∀ key entry, (key, entry) ∈ c.entries → ∃ i, j.latest? key = some i ∧ entry = i.entry
  fresh : ∀ key i, j.latest? key = some i → since < i.instant + i.lifetime →
    (key, i.entry) ∈ c.entries

variable {since now : Nat} {j : Journal κ ν} {c : Cache κ ν} {key : κ} {value : ν} {lifetime : Nat}

theorem mirrors_empty : Mirrors since ([] : Journal κ ν) .empty where
  distinct := List.nodup_nil
  latest _ _ h := nomatch h
  fresh _ _ h := nomatch h

theorem Mirrors.mono (h : Mirrors since j c) (hnow : since ≤ now) : Mirrors now j c where
  distinct := h.distinct
  latest := h.latest
  fresh key i hi hfresh := h.fresh key i hi (Nat.lt_of_le_of_lt hnow hfresh)

theorem Mirrors.get? (h : Mirrors since j c) (hnow : since ≤ now) (key : κ) :
    c.get? now key = j.get? now key := by
  rw [Cache.get?, Journal.get?]
  cases hlookup : c.entries.lookup key with
  | some entry =>
      obtain ⟨front, back, hentries, -⟩ := List.lookup_eq_some_iff.1 hlookup
      have hmem : (key, entry) ∈ c.entries := by
        rw [hentries]
        simp
      obtain ⟨i, hi, rfl⟩ := h.latest key entry hmem
      rw [hi]
      rfl
  | none =>
      cases hi : j.latest? key with
      | none => rfl
      | some i =>
          have hexpired : ¬ now < i.instant + i.lifetime := by
            intro hfresh
            have hmem := h.fresh key i hi (Nat.lt_of_le_of_lt hnow hfresh)
            have hother := List.lookup_eq_none_iff.1 hlookup _ hmem
            simp at hother
          exact (if_neg hexpired).symm

theorem Mirrors.keeping (h : Mirrors since j c) (hnow : since ≤ now)
    {keeps : Nat → κ × Nat × ν → Bool} (hkeeps : ∀ now e, now < e.2.1 → keeps now e) :
    Mirrors now (⟨now, key, value, lifetime⟩ :: j) (keeping keeps c now key value lifetime) where
  distinct := by
    refine List.nodup_cons.2 ⟨?_, (List.filter_sublist.map Prod.fst).nodup h.distinct⟩
    intro hkey
    obtain ⟨e, he, heq⟩ := List.mem_map.1 hkey
    have hother := (List.mem_filter.1 he).2
    simp only [decide_eq_true_eq] at hother
    exact hother.1 heq
  latest := by
    rintro other entry hmem
    rcases List.mem_cons.1 hmem with heq | hmem
    · cases heq
      exact ⟨_, Journal.latest?_cons_self ⟨now, key, value, lifetime⟩ j, rfl⟩
    · obtain ⟨hmem, hother⟩ := List.mem_filter.1 hmem
      simp only [decide_eq_true_eq] at hother
      obtain ⟨i, hi, hentry⟩ := h.latest other entry hmem
      exact ⟨i, (Journal.latest?_cons_of_ne hother.1 j).trans hi, hentry⟩
  fresh := by
    intro other i hi hfresh
    by_cases hother : other = key
    · subst hother
      have hself := Journal.latest?_cons_self ⟨now, other, value, lifetime⟩ j
      cases hself.symm.trans hi
      exact List.mem_cons_self
    · rw [Journal.latest?_cons_of_ne hother] at hi
      refine List.mem_cons_of_mem _ (List.mem_filter.2 ⟨?_, ?_⟩)
      · exact h.fresh other i hi (Nat.lt_of_le_of_lt hnow hfresh)
      · simpa [hother] using hkeeps now (other, i.entry) hfresh

theorem Mirrors.insert (h : Mirrors since j c) (hnow : since ≤ now) :
    Mirrors now (⟨now, key, value, lifetime⟩ :: j) (c.insert now key value lifetime) := by
  rw [insert_eq_keeping]
  exact h.keeping hnow fun _ _ hfresh => decide_eq_true hfresh

theorem Mirrors.size_insert (h : Mirrors since j c) (hnow : since ≤ now) :
    (c.insert now key value lifetime).size =
      Journal.size (⟨now, key, value, lifetime⟩ :: j) := by
  have hinsert : Mirrors now _ (c.insert now key value lifetime) := h.insert hnow
  obtain ⟨hkey, hdistinct⟩ := List.nodup_cons.1 hinsert.distinct
  rw [size, Cache.insert, List.length_cons, Journal.size, Nat.add_comm, ← List.length_map Prod.fst,
    ← List.toFinset_card_of_nodup hdistinct]
  congr 2
  ext other
  rw [List.mem_toFinset, Finset.mem_erase, Journal.mem_fresh, List.mem_map]
  constructor
  · rintro ⟨⟨_, entry⟩, hmem, rfl⟩
    obtain ⟨hmem, hother⟩ := List.mem_filter.1 hmem
    simp only [decide_eq_true_eq] at hother
    obtain ⟨i, hi, rfl⟩ := h.latest _ entry hmem
    exact ⟨hother.1, i, hi, hother.2⟩
  · rintro ⟨hother, i, hi, hfresh⟩
    refine ⟨(other, i.entry), List.mem_filter.2 ⟨?_, ?_⟩, rfl⟩
    · exact h.fresh other i hi (Nat.lt_of_le_of_lt hnow hfresh)
    · simpa using ⟨hother, hfresh⟩

theorem Mirrors.perform (h : Mirrors since j c) (hnow : since ≤ now)
    {keeps : Nat → κ × Nat × ν → Bool} (hkeeps : ∀ now e, now < e.2.1 → keeps now e)
    (deed : Deed κ ν) :
    Mirrors now (j.perform now deed).1 (c.perform (Cache.keeping keeps) now deed).1 ∧
      (c.perform (Cache.keeping keeps) now deed).2.found? = (j.perform now deed).2.found? := by
  cases deed with
  | insert key value lifetime => exact ⟨h.keeping hnow hkeeps, rfl⟩
  | get key => exact ⟨h.mono hnow, congrArg some (h.get? hnow key)⟩
  | size => exact ⟨h.mono hnow, rfl⟩

theorem Mirrors.found (h : Mirrors since j c) {keeps : Nat → κ × Nat × ν → Bool}
    (hkeeps : ∀ now e, now < e.2.1 → keeps now e) {deeds : List (Nat × Deed κ ν)}
    (hdeeds : deeds.Pairwise (·.1 ≤ ·.1)) (hsince : ∀ d ∈ deeds, since ≤ d.1) :
    (c.answers (Cache.keeping keeps) deeds).filterMap Answer.found? =
      (j.answers deeds).filterMap Answer.found? := by
  induction deeds generalizing since j c with
  | nil => rfl
  | cons d deeds ih =>
      obtain ⟨now, deed⟩ := d
      obtain ⟨hlater, hrest⟩ := List.pairwise_cons.1 hdeeds
      obtain ⟨hmirrors, hfound⟩ := h.perform (hsince _ List.mem_cons_self) hkeeps deed
      rw [answers, Journal.answers, List.filterMap_cons, List.filterMap_cons, hfound,
        ih hmirrors hrest hlater]

theorem Mirrors.answers (h : Mirrors since j c) (hsize : c.size = j.size)
    {deeds : List (Nat × Deed κ ν)} (hdeeds : deeds.Pairwise (·.1 ≤ ·.1))
    (hsince : ∀ d ∈ deeds, since ≤ d.1) : c.answers Cache.insert deeds = j.answers deeds := by
  induction deeds generalizing since j c with
  | nil => rfl
  | cons d deeds ih =>
      obtain ⟨now, deed⟩ := d
      obtain ⟨hlater, hrest⟩ := List.pairwise_cons.1 hdeeds
      have hnow : since ≤ now := hsince _ List.mem_cons_self
      rw [Cache.answers, Journal.answers]
      cases deed with
      | insert key value lifetime =>
          exact congrArg _ (ih (h.insert hnow) (h.size_insert hnow) hrest hlater)
      | get key =>
          rw [Cache.perform, Journal.perform, h.get? hnow key]
          exact congrArg _ (ih (h.mono hnow) hsize hrest hlater)
      | size =>
          rw [Cache.perform, Journal.perform, hsize]
          exact congrArg _ (ih (h.mono hnow) hsize hrest hlater)

/-- A cache answers like the journal of its insertions, and what an insertion makes of expired entries
does not show in what is found. -/
theorem insertions_journalled {deeds : List (Nat × Deed κ ν)}
    (hdeeds : deeds.Pairwise (·.1 ≤ ·.1)) :
    answers insert .empty deeds = Journal.answers [] deeds ∧
      ∀ keeps : Nat → κ × Nat × ν → Bool, (∀ now e, now < e.2.1 → keeps now e) →
        (answers (keeping keeps) .empty deeds).filterMap Answer.found? =
          (answers insert .empty deeds).filterMap Answer.found? := by
  have hempty : Mirrors 0 ([] : Journal κ ν) .empty := mirrors_empty
  have hlog := hempty.answers rfl hdeeds fun _ _ => Nat.zero_le _
  refine ⟨hlog, fun keeps hkeeps => ?_⟩
  rw [hempty.found hkeeps hdeeds fun _ _ => Nat.zero_le _, hlog]

def overwriting : List (Nat × Deed Nat Nat) :=
  [(0, .insert 1 10 100), (5, .insert 1 11 0), (5, .get 1), (5, .size), (5, .insert 2 12 10), (5, .size),
    (14, .get 2), (15, .get 2)]

theorem overwriting_answered :
    overwriting.Pairwise (·.1 ≤ ·.1) ∧
      answers insert .empty overwriting = [.done, .done, .found none, .counted 1, .done, .counted 1,
        .found (some 12), .found none] ∧
      (answers (keeping fun _ _ => true) .empty overwriting).filterMap Answer.found? =
        [none, some 12, none] := by
  have hdeeds : overwriting.Pairwise (·.1 ≤ ·.1) := by decide
  obtain ⟨hlog, hspared⟩ := insertions_journalled hdeeds
  rw [hspared _ fun _ _ _ => rfl, hlog]
  exact ⟨hdeeds, by decide, by decide⟩

end Advisor.Cache

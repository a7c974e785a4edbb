import Advisor.Json.Decoder
import Advisor.Proofs.Json.Scanning

/-!
The texts that the reader of JSON takes. Its steps are counted by fuel; here they are told without it, and
the fuel that a text is given is shown to be enough.
-/

namespace Advisor.Json.Document

/-- What is read: a document, or what a container holds from here on. -/
inductive Part
  | doc (d : Document)
  | items (ds : List Document)
  | members (ms : List (Option String × Document))

def ReadsString (s : Option String) (cs rest : List Char) : Prop :=
  ∃ body, Opens ['"'] cs body ∧ ∃ ps, scanString [] body = some (ps, rest) ∧
    s = (joinPieces ps).map .ofList

/-- The text begins with all of a part, and `rest` is what follows it. -/
inductive Reads : Part → (cs rest : List Char) → Prop
  | null (h : Opens ['n', 'u', 'l', 'l'] cs rest) : Reads (.doc .null) cs rest
  | true (h : Opens ['t', 'r', 'u', 'e'] cs rest) : Reads (.doc (.bool true)) cs rest
  | false (h : Opens ['f', 'a', 'l', 's', 'e'] cs rest) : Reads (.doc (.bool false)) cs rest
  | str (h : ReadsString s cs rest) : Reads (.doc (.str s)) cs rest
  | num (h : scanNumber (skipSpace cs) = some (l, rest)) : Reads (.doc (.num l.number?)) cs rest
  | emptyArr (hopen : Opens ['['] cs inside) (hend : Opens [']'] inside rest) :
      Reads (.doc (.arr [] true)) cs rest
  | arr (hopen : Opens ['['] cs inside) (hitems : Reads (.items ds) inside rest) :
      Reads (.doc (.arr ds true)) cs rest
  | emptyObj (hopen : Opens ['\x7b'] cs inside) (hend : Opens ['\x7d'] inside rest) :
      Reads (.doc (.obj [] true)) cs rest
  | obj (hopen : Opens ['\x7b'] cs inside) (hmembers : Reads (.members ms) inside rest) :
      Reads (.doc (.obj ms true)) cs rest
  | lastItem (hd : Reads (.doc d) cs mid) (hend : Opens [']'] mid rest) : Reads (.items [d]) cs rest
  | item (hd : Reads (.doc d) cs mid) (hmore : Opens [','] mid after)
      (hds : Reads (.items ds) after rest) : Reads (.items (d :: ds)) cs rest
  | lastMember (hkey : ReadsString key cs colon) (hcolon : Opens [':'] colon inside)
      (hd : Reads (.doc d) inside mid) (hend : Opens ['\x7d'] mid rest) :
      Reads (.members [(key, d)]) cs rest
  | member (hkey : ReadsString key cs colon) (hcolon : Opens [':'] colon inside)
      (hd : Reads (.doc d) inside mid) (hmore : Opens [','] mid after)
      (hms : Reads (.members ms) after rest) : Reads (.members ((key, d) :: ms)) cs rest

section Shape

variable {p : Part} {s : Option String} {cs cs' rest : List Char}

theorem Opens.congr {word : List Char} (h : Opens word cs rest)
    (hskip : skipSpace cs' = skipSpace cs) : Opens word cs' rest :=
  hskip.trans h

theorem ReadsString.congr (h : ReadsString s cs rest) (hskip : skipSpace cs' = skipSpace cs) :
    ReadsString s cs' rest := by
  obtain ⟨body, hopen, hscan⟩ := h
  exact ⟨body, hopen.congr hskip, hscan⟩

theorem Reads.congr (h : Reads p cs rest) (hskip : skipSpace cs' = skipSpace cs) :
    Reads p cs' rest := by
  induction h with
  | null h => exact .null (h.congr hskip)
  | true h => exact .true (h.congr hskip)
  | false h => exact .false (h.congr hskip)
  | str h => exact .str (h.congr hskip)
  | num h => exact .num (hskip ▸ h)
  | emptyArr hopen hend => exact .emptyArr (hopen.congr hskip) hend
  | arr hopen hitems => exact .arr (hopen.congr hskip) hitems
  | emptyObj hopen hend => exact .emptyObj (hopen.congr hskip) hend
  | obj hopen hmembers => exact .obj (hopen.congr hskip) hmembers
  | lastItem _ hend ih => exact .lastItem (ih hskip) hend
  | item _ hmore hds ih => exact .item (ih hskip) hmore hds
  | lastMember hkey hcolon hd hend => exact .lastMember (hkey.congr hskip) hcolon hd hend
  | member hkey hcolon hd hmore hms => exact .member (hkey.congr hskip) hcolon hd hmore hms

theorem Reads.skip (h : Reads p cs rest) : Reads p (skipSpace cs) rest :=
  h.congr (skipSpace_skipSpace cs)

theorem readsString_local (s : Option String) : Local (ReadsString s) := by
  rintro cs rest ⟨body, hopen, ps, hscan, hs⟩
  refine ((opens_local '"' [] cs body hopen).comp (scanString_local [] ps body rest hscan)).imp ?_
  rintro cs rest ⟨body, hopen, hscan⟩
  exact ⟨body, hopen, ps, hscan, hs⟩

theorem reads_local (p : Part) : Local (Reads p) := by
  intro cs rest h
  induction h with
  | null h => exact (opens_local _ _ _ _ h).imp fun _ _ => .null
  | true h => exact (opens_local _ _ _ _ h).imp fun _ _ => .true
  | false h => exact (opens_local _ _ _ _ h).imp fun _ _ => .false
  | str h => exact (readsString_local _ _ _ h).imp fun _ _ => .str
  | num h => exact (skipNumber_local _ _ _ h).imp fun _ _ => .num
  | emptyArr hopen hend =>
      refine ((opens_local _ _ _ _ hopen).comp (opens_local _ _ _ _ hend)).imp ?_
      exact fun _ _ ⟨_, hopen, hend⟩ => .emptyArr hopen hend
  | arr hopen _ ih =>
      refine ((opens_local _ _ _ _ hopen).comp ih).imp ?_
      exact fun _ _ ⟨_, hopen, hitems⟩ => .arr hopen hitems
  | emptyObj hopen hend =>
      refine ((opens_local _ _ _ _ hopen).comp (opens_local _ _ _ _ hend)).imp ?_
      exact fun _ _ ⟨_, hopen, hend⟩ => .emptyObj hopen hend
  | obj hopen _ ih =>
      refine ((opens_local _ _ _ _ hopen).comp ih).imp ?_
      exact fun _ _ ⟨_, hopen, hmembers⟩ => .obj hopen hmembers
  | lastItem _ hend ih =>
      refine (ih.comp (opens_local _ _ _ _ hend)).imp ?_
      exact fun _ _ ⟨_, hd, hend⟩ => .lastItem hd hend
  | item _ hmore _ ihd ihds =>
      refine (ihd.comp ((opens_local _ _ _ _ hmore).comp ihds)).imp ?_
      exact fun _ _ ⟨_, hd, _, hmore, hds⟩ => .item hd hmore hds
  | lastMember hkey hcolon _ hend ih =>
      refine ((readsString_local _ _ _ hkey).comp ((opens_local _ _ _ _ hcolon).comp
        (ih.comp (opens_local _ _ _ _ hend)))).imp ?_
      exact fun _ _ ⟨_, hkey, _, hcolon, _, hd, hend⟩ => .lastMember hkey hcolon hd hend
  | member hkey hcolon _ hmore _ ihd ihms =>
      refine ((readsString_local _ _ _ hkey).comp ((opens_local _ _ _ _ hcolon).comp
        (ihd.comp ((opens_local _ _ _ _ hmore).comp ihms)))).imp ?_
      exact fun _ _ ⟨_, hkey, _, hcolon, _, hd, _, hmore, hms⟩ => .member hkey hcolon hd hmore hms

/-- Nothing in what is read broke. -/
def Part.IsWhole : Part → Prop
  | doc d => d.isWhole
  | items ds => allWhole ds
  | members ms => membersWhole ms

theorem Reads.isWhole (h : Reads p cs rest) : p.IsWhole := by
  induction h with
  | null | true | false | str | num | emptyArr | emptyObj => rfl
  | arr _ _ ih | obj _ _ ih =>
      simp only [Part.IsWhole, Document.isWhole, Bool.and_true] at ih ⊢
      exact ih
  | lastItem _ _ ih =>
      simp only [Part.IsWhole, allWhole, Bool.and_true] at ih ⊢
      exact ih
  | item _ _ _ ihd ihds =>
      simp only [Part.IsWhole, allWhole, Bool.and_eq_true] at ihd ihds ⊢
      exact ⟨ihd, ihds⟩
  | lastMember _ _ _ _ ih =>
      simp only [Part.IsWhole, membersWhole, Bool.and_true] at ih ⊢
      exact ih
  | member _ _ _ _ _ ihd ihms =>
      simp only [Part.IsWhole, membersWhole, Bool.and_eq_true] at ihd ihms ⊢
      exact ⟨ihd, ihms⟩

theorem Opens.ne_nil {c : Char} {word : List Char} (h : Opens (c :: word) cs rest) : cs ≠ [] := by
  rintro rfl
  cases h

theorem ReadsString.ne_nil (h : ReadsString s cs rest) : cs ≠ [] := by
  obtain ⟨body, hopen, -⟩ := h
  exact hopen.ne_nil

theorem Reads.ne_nil (h : Reads p cs rest) : cs ≠ [] := by
  induction h with
  | null h | true h | false h | str h => exact h.ne_nil
  | num h =>
      rintro rfl
      cases h
  | emptyArr hopen | arr hopen | emptyObj hopen | obj hopen => exact hopen.ne_nil
  | lastItem _ _ ih | item _ _ _ ih => exact ih
  | lastMember hkey | member hkey => exact hkey.ne_nil

theorem Reads.suffix (h : Reads p cs rest) : rest <:+ cs :=
  (reads_local p cs rest h).suffix

theorem Reads.length_lt (h : Reads p cs rest) : rest.length < cs.length := by
  obtain ⟨front, rfl, hlocal⟩ := reads_local p cs rest h
  cases front with
  | nil => exact absurd rfl (hlocal [] (follows_nil rest)).ne_nil
  | cons c front =>
      rw [List.length_append, List.length_cons]
      omega

theorem Opens.length_lt {c : Char} {word : List Char} (h : Opens (c :: word) cs rest) :
    rest.length < cs.length := by
  have hle := cs.length_dropWhile_le isSpace
  rw [show cs.dropWhile isSpace = c :: word ++ rest from h] at hle
  simp only [List.cons_append, List.length_cons, List.length_append] at hle
  omega

theorem ReadsString.length_lt (h : ReadsString s cs rest) : rest.length < cs.length := by
  obtain ⟨body, hopen, ps, hscan, -⟩ := h
  have hrest := (scanString_local [] ps body rest hscan).suffix.length_le
  have hbody := hopen.length_lt
  omega

theorem Opens.suffix {word : List Char} (h : Opens word cs rest) : word ++ rest <:+ cs :=
  h ▸ List.dropWhile_suffix isSpace

theorem ReadsString.suffix (h : ReadsString s cs rest) : rest <:+ cs :=
  (readsString_local s cs rest h).suffix

theorem Reads.brace_suffix (h : Reads p cs rest) :
    ∀ ms, p = .members ms → '\x7d' :: rest <:+ cs := by
  induction h with
  | null | true | false | str | num | emptyArr | arr | emptyObj | obj | lastItem | item =>
      intro ms hp
      cases hp
  | lastMember hkey hcolon hd hend =>
      intro _ _
      have hinner := (List.suffix_cons _ _).trans hcolon.suffix
      exact hend.suffix.trans (hd.suffix.trans (hinner.trans hkey.suffix))
  | member hkey hcolon hd hmore _ _ ih =>
      intro _ _
      have hinner := (List.suffix_cons _ _).trans hcolon.suffix
      have hafter := (List.suffix_cons _ _).trans hmore.suffix
      exact (ih _ rfl).trans (hafter.trans (hd.suffix.trans (hinner.trans hkey.suffix)))

theorem Reads.obj_braces {ms : List (Option String × Document)} {closed : Bool}
    (h : Reads (.doc (.obj ms closed)) cs rest) :
    (∃ inside, skipSpace cs = '\x7b' :: inside) ∧ '\x7d' :: rest <:+ cs := by
  cases h with
  | emptyObj hopen hend =>
      exact ⟨⟨_, hopen⟩, hend.suffix.trans ((List.suffix_cons _ _).trans hopen.suffix)⟩
  | obj hopen hmembers =>
      have hinner := (List.suffix_cons _ _).trans hopen.suffix
      exact ⟨⟨_, hopen⟩, (hmembers.brace_suffix _ rfl).trans hinner⟩

def begins (c : Char) : Bool :=
  c == 'n' || c == 't' || c == 'f' || c == '"' || c == '[' || c == '\x7b' || c == '-' || c.isDigit

theorem scanNumber_begins {c : Char} {l : Literal} (h : scanNumber (c :: cs) = some (l, rest)) :
    c = '-' ∨ c.isDigit := by
  by_contra hc
  push Not at hc
  obtain ⟨hform, cs₁, hsign, cs₂, hdigits, -⟩ := scanNumber_eq_some.1 h
  have hplain : signOf (c :: cs) = (false, c :: cs) := by
    unfold signOf
    split
    · rename_i heq
      cases heq
      exact absurd rfl hc.1
    · rfl
  rw [hplain] at hsign
  obtain rfl : c :: cs = cs₁ := congrArg Prod.snd hsign
  have hnone : l.whole = [] := by
    have := congrArg Prod.fst hdigits
    simpa [digits, hc.2] using this.symm
  simp [hnone] at hform

theorem Opens.begins {c d : Char} {word : List Char} (h : Opens (c :: word) cs rest)
    (hc : Document.begins c) (hcs : skipSpace cs = d :: cs') : Document.begins d := by
  obtain ⟨rfl, -⟩ := List.cons.inj (hcs.symm.trans h)
  exact hc

theorem ReadsString.begins {c : Char} (h : ReadsString s cs rest) (hcs : skipSpace cs = c :: cs') :
    Document.begins c := by
  obtain ⟨body, hopen, -⟩ := h
  exact hopen.begins rfl hcs

theorem Reads.begins {c : Char} (h : Reads p cs rest) (hcs : skipSpace cs = c :: cs') :
    Document.begins c := by
  induction h with
  | null h | true h | false h => exact h.begins rfl hcs
  | str h => exact h.begins hcs
  | num h =>
      rw [hcs] at h
      rcases scanNumber_begins h with rfl | hdigit
      · rfl
      · simp [Document.begins, hdigit]
  | emptyArr hopen | arr hopen | emptyObj hopen | obj hopen => exact hopen.begins rfl hcs
  | lastItem _ _ ih | item _ _ _ ih => exact ih hcs
  | lastMember hkey | member hkey => exact hkey.begins hcs

end Shape

/-! The reader takes what reads, and has fuel enough for it. -/

def Part.ReadWith (fuel : Nat) (cs rest : List Char) : Part → Prop
  | doc d => value fuel cs = (d, some rest)
  | items ds => elements fuel cs = (ds, some rest)
  | members ms => entries fuel cs = (ms, some rest)

section Sound

variable {fuel : Nat} {cs rest : List Char}

theorem Reads.of_value {d : Document}
    (ih : ∀ p cs rest, Part.ReadWith fuel cs rest p → Reads p cs rest)
    (h : value (fuel + 1) cs = (d, some rest)) : Reads (.doc d) cs rest := by
  unfold value at h
  split at h
  case h_1 hword =>
    cases h
    exact .null hword
  case h_2 hword =>
    cases h
    exact .true hword
  case h_3 hword =>
    cases h
    exact .false hword
  case h_4 body hopen =>
    split at h
    · rename_i ps after hscan
      cases h
      exact .str ⟨body, hopen, ps, hscan, rfl⟩
    · cases h
  case h_5 inside hopen =>
    split at h
    · rename_i hend
      cases h
      exact .emptyArr hopen hend
    · cases hitems : elements fuel (skipSpace inside) with | mk ds after =>
      rw [hitems] at h
      cases h
      exact .arr hopen ((ih (.items ds) _ _ hitems).congr (skipSpace_skipSpace inside).symm)
  case h_6 inside hopen =>
    split at h
    · rename_i hend
      cases h
      exact .emptyObj hopen hend
    · cases hmembers : entries fuel (skipSpace inside) with | mk ms after =>
      rw [hmembers] at h
      cases h
      exact .obj hopen ((ih (.members ms) _ _ hmembers).congr (skipSpace_skipSpace inside).symm)
  case h_7 =>
    split at h
    · rename_i l after hnum
      cases h
      exact .num hnum
    · cases h

theorem Reads.of_elements {ds : List Document}
    (ih : ∀ p cs rest, Part.ReadWith fuel cs rest p → Reads p cs rest)
    (h : elements (fuel + 1) cs = (ds, some rest)) : Reads (.items ds) cs rest := by
  unfold elements at h
  split at h
  · cases h
  rename_i d mid hd
  split at h
  · rename_i hend
    cases h
    exact .lastItem (ih (.doc d) _ _ hd) hend
  · rename_i after hmore
    cases hitems : elements fuel after with | mk ds after =>
    rw [hitems] at h
    cases h
    exact .item (ih (.doc d) _ _ hd) hmore (ih (.items ds) _ _ hitems)
  · cases h

theorem Reads.of_entries {ms : List (Option String × Document)}
    (ih : ∀ p cs rest, Part.ReadWith fuel cs rest p → Reads p cs rest)
    (h : entries (fuel + 1) cs = (ms, some rest)) : Reads (.members ms) cs rest := by
  unfold entries at h
  split at h
  case h_2 => cases h
  rename_i body hopen
  split at h
  · cases h
  rename_i ps colon hscan
  have hkey : ReadsString ((joinPieces ps).map .ofList) cs colon := ⟨body, hopen, ps, hscan, rfl⟩
  dsimp only at h
  split at h
  case h_2 => cases h
  rename_i inside hcolon
  split at h
  · cases h
  rename_i d mid hd
  split at h
  · rename_i hend
    cases h
    exact .lastMember hkey hcolon (ih (.doc d) _ _ hd) hend
  · rename_i after hmore
    cases hmembers : entries fuel after with | mk ms after =>
    rw [hmembers] at h
    cases h
    exact .member hkey hcolon (ih (.doc d) _ _ hd) hmore (ih (.members ms) _ _ hmembers)
  · cases h

theorem Reads.of_readWith {p : Part} (h : p.ReadWith fuel cs rest) : Reads p cs rest := by
  induction fuel generalizing p cs rest with
  | zero => cases p <;> cases h
  | succ fuel ih =>
      have ih : ∀ p cs rest, Part.ReadWith fuel cs rest p → Reads p cs rest := fun _ _ _ => ih
      cases p with
      | doc d => exact of_value ih h
      | items ds => exact of_elements ih h
      | members ms => exact of_entries ih h

end Sound

section Complete

variable {fuel : Nat} {p : Part} {cs cs' rest : List Char}

/-- The fuel that a part takes beyond two steps a character. -/
def Part.slack : Part → Nat
  | doc _ => 1
  | items _ | members _ => 2

theorem Part.exists_succ {n : Nat} (h : 2 * n + p.slack ≤ fuel) : ∃ m, fuel = m + 1 := by
  refine Nat.exists_eq_add_one.2 ?_
  cases p <;> simp only [slack] at h <;> omega

theorem value_num {l : Literal} (h : scanNumber (skipSpace cs) = some (l, rest)) :
    value (fuel + 1) cs = (.num l.number?, some rest) := by
  unfold value
  split
  case h_7 => rw [h]
  all_goals
    rename_i hcs
    rw [hcs] at h
    rcases scanNumber_begins h with hc | hc <;> exact absurd hc (by decide)

theorem value_str {key : Option String} (h : ReadsString key cs rest) :
    value (fuel + 1) cs = (.str key, some rest) := by
  obtain ⟨body, hopen, ps, hscan, rfl⟩ := h
  unfold value
  rw [hopen]
  simp only [List.cons_append, List.nil_append]
  rw [hscan]

theorem value_emptyArr {inside : List Char} (hopen : Opens ['['] cs inside)
    (hend : Opens [']'] inside rest) : value (fuel + 1) cs = (.arr [] true, some rest) := by
  unfold value
  rw [hopen]
  simp only [List.cons_append, List.nil_append]
  rewrite [hend]
  rfl

theorem value_emptyObj {inside : List Char} (hopen : Opens ['\x7b'] cs inside)
    (hend : Opens ['\x7d'] inside rest) : value (fuel + 1) cs = (.obj [] true, some rest) := by
  unfold value
  rw [hopen]
  simp only [List.cons_append, List.nil_append]
  rewrite [hend]
  rfl

theorem value_arr {inside : List Char} {ds : List Document} (hopen : Opens ['['] cs inside)
    (hbegins : ∀ c after, skipSpace inside = c :: after → begins c)
    (hitems : elements fuel (skipSpace inside) = (ds, some rest)) :
    value (fuel + 1) cs = (.arr ds true, some rest) := by
  unfold value
  rw [hopen]
  simp only [List.cons_append, List.nil_append]
  split
  · rename_i hend
    exact absurd (hbegins _ _ hend) (by decide)
  · rw [hitems]
    rfl

theorem value_obj {inside : List Char} {ms : List (Option String × Document)}
    (hopen : Opens ['\x7b'] cs inside)
    (hbegins : ∀ c after, skipSpace inside = c :: after → begins c)
    (hmembers : entries fuel (skipSpace inside) = (ms, some rest)) :
    value (fuel + 1) cs = (.obj ms true, some rest) := by
  unfold value
  rw [hopen]
  simp only [List.cons_append, List.nil_append]
  split
  · rename_i hend
    exact absurd (hbegins _ _ hend) (by decide)
  · rw [hmembers]
    rfl

theorem elements_cons {more : List Char} {d : Document} (hvalue : value fuel cs = (d, some more)) :
    elements (fuel + 1) cs = match skipSpace more with
      | ']' :: cs => ([d], some cs)
      | ',' :: cs => (d :: (elements fuel cs).1, (elements fuel cs).2)
      | _ => ([d], none) := by
  rewrite [elements, hvalue]
  rfl

theorem entries_cons {key : Option String} {colon inside more : List Char} {d : Document}
    (hkey : ReadsString key cs colon) (hcolon : Opens [':'] colon inside)
    (hvalue : value fuel inside = (d, some more)) :
    entries (fuel + 1) cs = match skipSpace more with
      | '\x7d' :: cs => ([(key, d)], some cs)
      | ',' :: cs => ((key, d) :: (entries fuel cs).1, (entries fuel cs).2)
      | _ => ([(key, d)], none) := by
  obtain ⟨body, hopen, ps, hscan, rfl⟩ := hkey
  rw [entries, hopen]
  simp only [List.cons_append, List.nil_append]
  rw [hscan]
  dsimp only
  rw [hcolon]
  simp only [List.cons_append, List.nil_append]
  rewrite [hvalue]
  rfl

/-- By induction on what is read. White space in front may differ, for the reader skips it where a container
opens and again where its content begins. -/
theorem Reads.readWith (h : Reads p cs rest) (hskip : skipSpace cs' = skipSpace cs)
    (hfuel : 2 * cs'.length + p.slack ≤ fuel) : p.ReadWith fuel cs' rest := by
  obtain ⟨fuel, rfl⟩ := Part.exists_succ hfuel
  induction h generalizing cs' fuel with
  | null h | true h | false h =>
      dsimp only [Part.ReadWith]
      unfold value
      rw [h.congr hskip]
      rfl
  | str h => exact value_str (h.congr hskip)
  | num h => exact value_num (hskip ▸ h)
  | emptyArr hopen hend => exact value_emptyArr (hopen.congr hskip) hend
  | emptyObj hopen hend => exact value_emptyObj (hopen.congr hskip) hend
  | @arr cs inside ds rest hopen hitems ih =>
      have hlen := (hopen.congr hskip).length_lt
      have hskipped := inside.length_dropWhile_le isSpace
      refine value_arr (hopen.congr hskip) (fun _ _ => hitems.begins) ?_
      simp only [Part.slack] at hfuel ih
      obtain ⟨fuel, rfl⟩ := Nat.exists_eq_add_one.2 (show 0 < fuel by omega)
      exact ih (skipSpace_skipSpace inside) fuel (by simp only [skipSpace]; omega)
  | @obj cs inside ms rest hopen hmembers ih =>
      have hlen := (hopen.congr hskip).length_lt
      have hskipped := inside.length_dropWhile_le isSpace
      refine value_obj (hopen.congr hskip) (fun _ _ => hmembers.begins) ?_
      simp only [Part.slack] at hfuel ih
      obtain ⟨fuel, rfl⟩ := Nat.exists_eq_add_one.2 (show 0 < fuel by omega)
      exact ih (skipSpace_skipSpace inside) fuel (by simp only [skipSpace]; omega)
  | @lastItem d cs mid rest hd hend ih =>
      simp only [Part.slack] at hfuel ih
      obtain ⟨fuel, rfl⟩ := Nat.exists_eq_add_one.2 (show 0 < fuel by omega)
      have hvalue : value (fuel + 1) cs' = (d, some mid) := ih hskip fuel (by omega)
      dsimp only [Part.ReadWith]
      rewrite [elements_cons hvalue, hend]
      rfl
  | @item d cs mid after ds rest hd hmore hds ihd ihds =>
      have hmid := (hd.congr hskip).length_lt
      have hafter := hmore.length_lt
      simp only [Part.slack] at hfuel ihd ihds
      obtain ⟨fuel, rfl⟩ := Nat.exists_eq_add_one.2 (show 0 < fuel by omega)
      have hvalue : value (fuel + 1) cs' = (d, some mid) := ihd hskip fuel (by omega)
      have hitems : elements (fuel + 1) after = (ds, some rest) := ihds rfl fuel (by omega)
      dsimp only [Part.ReadWith]
      rw [elements_cons hvalue, hmore]
      change ((d :: (elements (fuel + 1) after).1), (elements (fuel + 1) after).2) = _
      rw [hitems]
  | @lastMember key cs colon inside d mid rest hkey hcolon hd hend ih =>
      have hlen := (hkey.congr hskip).length_lt
      have hinner := hcolon.length_lt
      simp only [Part.slack] at hfuel ih
      obtain ⟨fuel, rfl⟩ := Nat.exists_eq_add_one.2 (show 0 < fuel by omega)
      have hvalue : value (fuel + 1) inside = (d, some mid) := ih rfl fuel (by omega)
      dsimp only [Part.ReadWith]
      rewrite [entries_cons (hkey.congr hskip) hcolon hvalue, hend]
      rfl
  | @member key cs colon inside d mid after ms rest hkey hcolon hd hmore hms ihd ihms =>
      have hlen := (hkey.congr hskip).length_lt
      have hinner := hcolon.length_lt
      have hmid := hd.length_lt
      have hafter := hmore.length_lt
      simp only [Part.slack] at hfuel ihd ihms
      obtain ⟨fuel, rfl⟩ := Nat.exists_eq_add_one.2 (show 0 < fuel by omega)
      have hvalue : value (fuel + 1) inside = (d, some mid) := ihd rfl fuel (by omega)
      have hmembers : entries (fuel + 1) after = (ms, some rest) := ihms rfl fuel (by omega)
      dsimp only [Part.ReadWith]
      rw [entries_cons (hkey.congr hskip) hcolon hvalue, hmore]
      change (((key, d) :: (entries (fuel + 1) after).1), (entries (fuel + 1) after).2) = _
      rw [hmembers]

end Complete

section Read

variable {cs rest : List Char} {d : Document}

theorem read_eq_some : read cs = (d, some rest) ↔ Reads (.doc d) cs rest := by
  have hread : read cs = (d, some rest) ↔ (Part.doc d).ReadWith (2 * cs.length + 2) cs rest :=
    Iff.rfl
  refine hread.trans ⟨Reads.of_readWith, fun h => h.readWith rfl ?_⟩
  simp only [Part.slack]
  omega

theorem Reads.core (h : Reads (.doc d) cs rest) :
    ∃ lead body, cs = lead ++ body ++ rest ∧ (∀ c ∈ lead, isSpace c) ∧ skipSpace body = body ∧
      Reads (.doc d) body [] := by
  obtain ⟨front, rfl, hlocal⟩ := reads_local _ cs rest h
  have hfront := hlocal [] (follows_nil rest)
  rw [List.append_nil] at hfront
  refine ⟨front.takeWhile isSpace, skipSpace front, ?_, fun c hc => List.mem_takeWhile_imp hc,
    skipSpace_skipSpace front, hfront.skip⟩
  rw [skipSpace, List.takeWhile_append_dropWhile]

end Read

end Advisor.Json.Document

namespace Advisor.Json

open Document

section Text

variable {text : String}

theorem Decoder.ofText_eq_ok {decode : Decoder α} {a : α} :
    ofText decode text = .ok a ↔
      ∃ d rest, Reads (.doc d) text.toList rest ∧ (∀ c ∈ rest, isSpace c) ∧
        decode fullRoom d = .ok a := by
  unfold ofText
  constructor
  · intro h
    cases hread : read text.toList with | mk d rest =>
    rw [hread] at h
    dsimp only at h
    cases hdecode : decode fullRoom d with
    | error e =>
        rw [hdecode] at h
        cases h
    | ok b =>
        rw [hdecode] at h
        cases rest with
        | none => cases h
        | some rest =>
            change (if rest.all isSpace then Except.ok b else _) = _ at h
            split at h
            · rename_i hspace
              cases h
              exact ⟨d, rest, read_eq_some.1 hread, List.all_eq_true.1 hspace, hdecode⟩
            · cases h
  · rintro ⟨d, rest, hreads, hspace, hdecode⟩
    rw [read_eq_some.2 hreads]
    dsimp only
    rw [hdecode]
    exact if_pos (List.all_eq_true.2 hspace)

theorem parse?_eq_some {v : Json} :
    parse? text = some v ↔
      ∃ d rest, Reads (.doc d) text.toList rest ∧ (∀ c ∈ rest, isSpace c) ∧
        Decoder.value Decoder.fullRoom d = .ok v := by
  rw [← Decoder.ofText_eq_ok, parse?]
  cases Decoder.ofText Decoder.value text <;> simp [Except.toOption]

end Text

end Advisor.Json

import Advisor.Text.Utf8
import Mathlib.Algebra.Group.Nat.Defs
import Mathlib.Data.List.Infix

/-!
What bytes are read as: the characters that they are the encodings of, one after the other, and pieces that
are torn off a character.
-/

namespace Advisor.Text.Utf8

open String (utf8EncodeChar)

/-- Bytes in front of others that no character begins with. They are as many as may begin one, and where
not even the first may, only that. -/
structure Torn (piece rest : List UInt8) : Prop where
  nonempty : piece ≠ []
  begins : 1 < piece.length → ∃ c, piece <+: utf8EncodeChar c
  longest : ∀ b, rest.head? = some b → ∀ c, ¬ piece ++ [b] <+: utf8EncodeChar c
  unread : ∀ c, ¬ utf8EncodeChar c <+: piece ++ rest

/-- How bytes are read, with nothing for a piece that is torn. -/
inductive Reads : List UInt8 → List (Option Char) → Prop
  | nil : Reads [] []
  | char (c : Char) (h : Reads bytes cs) : Reads (utf8EncodeChar c ++ bytes) (some c :: cs)
  | torn (h : Torn piece bytes) (hrest : Reads bytes cs) : Reads (piece ++ bytes) (none :: cs)

/-- The text that bytes are taken for, which shows where they are torn. -/
def Spells (bytes : List UInt8) (text : String) : Prop :=
  ∃ cs, Reads bytes cs ∧ text = .ofList (cs.map (·.getD '\uFFFD'))

section Characters

def continuation : Nat → Nat → List UInt8
  | 0, _ => []
  | k + 1, v => UInt8.ofNat (v / 64 ^ k % 64 + 0x80) :: continuation k v

theorem length_continuation (k v : Nat) : (continuation k v).length = k := by
  induction k with
  | zero => rfl
  | succ k ih => rw [continuation, List.length_cons, ih]

/-- The first byte of a character, and how many follow it. -/
def Leads (v lead more : Nat) : Prop :=
  (more = 0 ∧ v < 0x80 ∧ lead = v) ∨
  (more = 1 ∧ 0x80 ≤ v ∧ v < 0x800 ∧ lead = v / 64 + 0xC0) ∨
  (more = 2 ∧ 0x800 ≤ v ∧ v < 0x10000 ∧ lead = v / 4096 + 0xE0) ∨
  (more = 3 ∧ 0x10000 ≤ v ∧ v < 0x110000 ∧ lead = v / 262144 + 0xF0)

theorem encode_eq (c : Char) : ∃ lead more, Leads c.toNat lead more ∧ lead < 256 ∧
    utf8EncodeChar c = UInt8.ofNat lead :: continuation more c.toNat := by
  have hlimit : c.toNat < 0x110000 := by
    rcases c.valid with h | ⟨_, h⟩
    · exact Nat.lt_trans h (by decide)
    · exact h
  have hencode : utf8EncodeChar c =
      if c.toNat ≤ 127 then [UInt8.ofNat c.toNat]
      else if c.toNat ≤ 2047 then UInt8.ofNat (c.toNat / 64 % 32 + 192) :: continuation 1 c.toNat
      else if c.toNat ≤ 65535 then UInt8.ofNat (c.toNat / 4096 % 16 + 224) :: continuation 2 c.toNat
      else UInt8.ofNat (c.toNat / 262144 % 8 + 240) :: continuation 3 c.toNat := by
    simp [utf8EncodeChar, continuation]
  rw [hencode]
  generalize c.toNat = v at hlimit
  split
  · exact ⟨v, 0, .inl ⟨rfl, by omega, rfl⟩, by omega, rfl⟩
  split
  · refine ⟨v / 64 + 0xC0, 1, .inr (.inl ⟨rfl, by omega, by omega, rfl⟩), by omega, ?_⟩
    rw [Nat.mod_eq_of_lt (by omega)]
  split
  · refine ⟨v / 4096 + 0xE0, 2, .inr (.inr (.inl ⟨rfl, by omega, by omega, rfl⟩)), by omega, ?_⟩
    rw [Nat.mod_eq_of_lt (by omega)]
  · refine ⟨v / 262144 + 0xF0, 3, .inr (.inr (.inr ⟨rfl, by omega, by omega, rfl⟩)), by omega, ?_⟩
    rw [Nat.mod_eq_of_lt (by omega)]

end Characters

section Machine

variable {p : Pending} {seen rest : List UInt8} {b : UInt8}

/-- The character is one that the bytes under way may still become. -/
def Pending.Fits (p : Pending) (v : Nat) : Prop :=
  p.bits * 64 + p.low.toNat ≤ v / 64 ^ (p.need - 1) + 0x80 ∧
    v / 64 ^ (p.need - 1) + 0x80 ≤ p.bits * 64 + p.high.toNat

/-- Which characters begin with the bytes that have been seen, and what is still missing of them. -/
structure Begun (seen : List UInt8) (p : Pending) : Prop where
  nonempty : seen ≠ []
  missing : 0 < p.need
  low : 0x80 ≤ p.low.toNat
  ordered : p.low.toNat ≤ p.high.toNat
  high : p.high.toNat ≤ 0xBF
  valid : ∀ v, p.Fits v → v.isValidChar
  fits : ∀ c, seen <+: utf8EncodeChar c → p.Fits c.toNat
  spelled : ∀ c, p.Fits c.toNat → utf8EncodeChar c = seen ++ continuation p.need c.toNat
  whole : ∀ c, ¬ utf8EncodeChar c <+: seen

theorem Begun.next (h : Begun seen p) (hfits : p.Fits v) :
    p.low.toNat ≤ v / 64 ^ (p.need - 1) % 64 + 0x80 ∧
      v / 64 ^ (p.need - 1) % 64 + 0x80 ≤ p.high.toNat := by
  obtain ⟨hlow, hhigh⟩ := hfits
  have := h.low
  have := h.high
  generalize v / 64 ^ (p.need - 1) = q at *
  omega

theorem toNat_byte {n : Nat} (h : n < 256) : (UInt8.ofNat n).toNat = n :=
  UInt8.toNat_ofNat_of_lt' h

theorem toNat_char {n : Nat} (h : n.isValidChar) : (Char.ofNat n).toNat = n := by
  rw [Char.ofNat, dif_pos h]
  rfl

theorem Begun.continued (h : Begun seen p) (hc : seen <+: utf8EncodeChar c) : ∃ b more,
    utf8EncodeChar c = seen ++ b :: more ∧ p.low ≤ b ∧ b ≤ p.high := by
  have hfits := h.fits c hc
  obtain ⟨k, hk⟩ := Nat.exists_eq_add_of_lt h.missing
  have hspelled := h.spelled c hfits
  obtain ⟨hlow, hhigh⟩ := h.next hfits
  rw [hk, Nat.zero_add, continuation] at hspelled
  rw [hk, Nat.zero_add, Nat.add_sub_cancel] at hlow hhigh
  refine ⟨_, _, hspelled, ?_⟩
  rw [UInt8.le_iff_toNat_le, UInt8.le_iff_toNat_le, toNat_byte (by omega)]
  exact ⟨hlow, hhigh⟩

theorem Begun.exists_isPrefix (h : Begun seen p) : ∃ c, seen <+: utf8EncodeChar c := by
  obtain ⟨v, hfits⟩ : ∃ v, p.Fits v := by
    refine ⟨(p.bits * 64 + p.low.toNat - 0x80) * 64 ^ (p.need - 1), ?_⟩
    have := h.low
    have := h.ordered
    rw [Pending.Fits, Nat.mul_div_cancel _ (Nat.pow_pos (by decide))]
    omega
  refine ⟨Char.ofNat v, ?_⟩
  rw [h.spelled _ ((toNat_char (h.valid v hfits)).symm ▸ hfits)]
  exact List.prefix_append ..

theorem Begun.torn (h : Begun seen p)
    (hstop : ∀ b, rest.head? = some b → ¬ (p.low ≤ b ∧ b ≤ p.high)) : Torn seen rest where
  nonempty := h.nonempty
  begins _ := h.exists_isPrefix
  longest b hb c hc := by
    obtain ⟨b', more, hspelled, hrange⟩ := h.continued ((List.prefix_append ..).trans hc)
    rw [hspelled, List.prefix_append_right_inj] at hc
    obtain rfl : b = b' := by simpa using hc
    exact hstop b hb hrange
  unread c hc := by
    rcases List.prefix_or_prefix_of_prefix hc (List.prefix_append seen rest) with hc' | hc'
    · exact h.whole c hc'
    · obtain ⟨b, more, hspelled, hrange⟩ := h.continued hc'
      rw [hspelled, List.prefix_append_right_inj] at hc
      obtain ⟨after, rfl⟩ := hc
      exact hstop b rfl hrange

theorem Begun.fits_of_fits (h : Begun seen p) (hneed : p.need = need + 2)
    (hb : p.low ≤ b ∧ b ≤ p.high) {v : Nat} :
    Pending.Fits ⟨need + 1, p.bits * 64 + (b.toNat - 0x80), 0x80, 0xBF⟩ v ↔
      p.Fits v ∧ v / 64 ^ (need + 1) % 64 + 0x80 = b.toNat := by
  obtain ⟨hlow, hhigh⟩ := hb
  rw [UInt8.le_iff_toNat_le] at hlow hhigh
  have hleast := h.low
  have hmost := h.high
  rw [Pending.Fits, Pending.Fits, hneed, show need + 2 - 1 = need + 1 from rfl, Nat.pow_succ,
    ← Nat.div_div_eq_div_mul]
  simp only [Nat.add_sub_cancel, UInt8.reduceToNat]
  generalize v / 64 ^ need = q
  omega

theorem Begun.step (h : Begun seen p) (hneed : p.need = need + 2) (hb : p.low ≤ b ∧ b ≤ p.high) :
    Begun (seen ++ [b]) ⟨need + 1, p.bits * 64 + (b.toNat - 0x80), 0x80, 0xBF⟩ where
  nonempty := by simp
  missing := Nat.succ_pos _
  low := Nat.le_refl 0x80
  ordered := (by decide : 0x80 ≤ 0xBF)
  high := Nat.le_refl 0xBF
  valid v hv := h.valid v ((h.fits_of_fits hneed hb).1 hv).1
  fits c hc := by
    have hfits := h.fits c ((List.prefix_append ..).trans hc)
    refine (h.fits_of_fits hneed hb).2 ⟨hfits, ?_⟩
    rw [h.spelled c hfits, hneed, List.prefix_append_right_inj, continuation,
      List.cons_prefix_cons] at hc
    have := h.high
    have hrange := (h.next hfits).2
    rw [hneed, show need + 2 - 1 = need + 1 from rfl] at hrange
    rw [hc.1, toNat_byte (by omega)]
  spelled c hc := by
    obtain ⟨hfits, hbyte⟩ := (h.fits_of_fits hneed hb).1 hc
    rw [h.spelled c hfits, hneed, continuation, hbyte, UInt8.ofNat_toNat, List.append_assoc]
    rfl
  whole c hc := by
    rcases List.prefix_concat_iff.1 hc with he | hc
    · have hfits := h.fits c (he ▸ List.prefix_append ..)
      have hlength := congrArg List.length (h.spelled c hfits)
      rw [he, List.length_append, List.length_append, length_continuation, hneed] at hlength
      simp at hlength
    · exact h.whole c hc

theorem Begun.complete (h : Begun seen p) (hneed : p.need = 1) (hb : p.low ≤ b ∧ b ≤ p.high) :
    utf8EncodeChar (Char.ofNat (p.bits * 64 + (b.toNat - 0x80))) = seen ++ [b] := by
  obtain ⟨hlow, hhigh⟩ := hb
  rw [UInt8.le_iff_toNat_le] at hlow hhigh
  have hleast := h.low
  have hmost := h.high
  have hfits : p.Fits (p.bits * 64 + (b.toNat - 0x80)) := by
    rw [Pending.Fits, hneed, Nat.sub_self, Nat.pow_zero, Nat.div_one]
    omega
  have hchar := toNat_char (h.valid _ hfits)
  rw [h.spelled _ (hchar.symm ▸ hfits), hchar, hneed, continuation, continuation, Nat.pow_zero, Nat.div_one]
  refine congrArg (seen ++ [·]) (UInt8.toNat_inj.1 ?_)
  rw [toNat_byte (by omega)]
  omega

theorem begun_start (hmissing : 0 < p.need)
    (hlow : 0x80 ≤ p.low.toNat) (hordered : p.low.toNat ≤ p.high.toNat) (hhigh : p.high.toNat ≤ 0xBF)
    (hvalid : ∀ v, p.Fits v → v.isValidChar)
    (hleads : ∀ v lead more, v.isValidChar → Leads v lead more → (lead = b.toNat ∨ p.Fits v) →
      lead = b.toNat ∧ p.Fits v ∧ more = p.need) : Begun [b] p where
  nonempty := by simp
  missing := hmissing
  low := hlow
  ordered := hordered
  high := hhigh
  valid := hvalid
  fits c hc := by
    obtain ⟨lead, more, hlead, hbyte, hencode⟩ := encode_eq c
    rw [hencode, List.cons_prefix_cons] at hc
    exact (hleads _ _ _ c.valid hlead (.inl (by rw [hc.1, toNat_byte hbyte]))).2.1
  spelled c hc := by
    obtain ⟨lead, more, hlead, hbyte, hencode⟩ := encode_eq c
    obtain ⟨rfl, _, rfl⟩ := hleads _ _ _ c.valid hlead (.inr hc)
    rw [hencode, UInt8.ofNat_toNat]
    rfl
  whole c hc := by
    obtain ⟨lead, more, hlead, hbyte, hencode⟩ := encode_eq c
    rw [hencode, List.cons_prefix_cons, List.prefix_nil] at hc
    obtain ⟨rfl, _, rfl⟩ := hleads _ _ _ c.valid hlead (.inl (by rw [← hc.1, toNat_byte hbyte]))
    have := length_continuation p.need c.toNat
    rw [hc.2] at this
    simp at this
    omega

theorem start_cases (b : UInt8) :
    (∃ c, start b = .whole c ∧ utf8EncodeChar c = [b]) ∨ (∃ p, start b = .more p ∧ Begun [b] p) ∨
      (start b = .invalid ∧ ∀ c, ¬ [b] <+: utf8EncodeChar c) := by
  have invalid (hb : ∀ v lead more, Leads v lead more → lead ≠ b.toNat) (c : Char) :
      ¬ [b] <+: utf8EncodeChar c := by
    obtain ⟨lead, more, hlead, hbyte, hencode⟩ := encode_eq c
    rw [hencode, List.cons_prefix_cons]
    rintro ⟨rfl, _⟩
    exact hb _ _ _ hlead (toNat_byte hbyte).symm
  have hrange := b.toNat_lt
  unfold start
  simp only
  split
  · refine .inl ⟨_, rfl, ?_⟩
    have hchar : (Char.ofNat b.toNat).toNat = b.toNat := toNat_char (.inl (by omega))
    obtain ⟨lead, more, hlead, hbyte, hencode⟩ := encode_eq (Char.ofNat b.toNat)
    rw [hchar] at hlead hencode
    obtain ⟨rfl, rfl⟩ : more = 0 ∧ lead = b.toNat := by
      rcases hlead with h | h | h | h <;> omega
    rw [hencode, UInt8.ofNat_toNat, continuation]
  split
  · exact .inr (.inr ⟨rfl, invalid fun v lead more h => by rcases h with h | h | h | h <;> omega⟩)
  iterate 7
    split
    · refine .inr (.inl ⟨_, rfl, begun_start (Nat.succ_pos _) (by simp) (by simp) (by simp)
        (fun v => ?_) fun v lead more hvalid h => ?_⟩)
      · simp only [Pending.Fits, Nat.isValidChar, Nat.reduceSub, Nat.reducePow, Nat.div_one,
          UInt8.reduceToNat]
        omega
      · simp only [Pending.Fits, Nat.isValidChar, Nat.reduceSub, Nat.reducePow, Nat.div_one,
          UInt8.reduceToNat] at hvalid ⊢
        rcases h with h | h | h | h <;> omega
  exact .inr (.inr ⟨rfl, invalid fun v lead more h => by rcases h with h | h | h | h <;> omega⟩)

theorem piecesFrom_stop (hb : ¬ (p.low ≤ b ∧ b ≤ p.high)) (bytes : List UInt8) :
    piecesFrom (some p) (b :: bytes) = none :: pieces (b :: bytes) := by
  rw [pieces]
  conv => lhs; rw [piecesFrom, if_neg hb]
  conv => rhs; rw [piecesFrom]
  cases start b <;> rfl

theorem piecesFrom_step (hneed : p.need = need + 2) (hb : p.low ≤ b ∧ b ≤ p.high)
    (bytes : List UInt8) :
    piecesFrom (some p) (b :: bytes) =
      piecesFrom (some ⟨need + 1, p.bits * 64 + (b.toNat - 0x80), 0x80, 0xBF⟩) bytes := by
  conv => lhs; rw [piecesFrom, if_pos hb]
  simp only [hneed]

theorem piecesFrom_complete (hneed : p.need = 1) (hb : p.low ≤ b ∧ b ≤ p.high)
    (bytes : List UInt8) :
    piecesFrom (some p) (b :: bytes) =
      some (Char.ofNat (p.bits * 64 + (b.toNat - 0x80))) :: pieces bytes := by
  conv => lhs; rw [piecesFrom, if_pos hb]
  simp only [hneed]
  rfl

theorem torn_start (hb : ∀ c, ¬ [b] <+: utf8EncodeChar c) (rest : List UInt8) : Torn [b] rest where
  nonempty := by simp
  begins h := absurd h (Nat.lt_irrefl 1)
  longest b' _ c hc := hb c ((List.prefix_append ..).trans hc)
  unread c hc := by
    obtain ⟨lead, more, _, _, hencode⟩ := encode_eq c
    rw [hencode, List.singleton_append, List.cons_prefix_cons] at hc
    exact hb c (by rw [hencode, hc.1]; exact List.prefix_append [b] _)

theorem reads_piecesFrom (bytes : List UInt8) :
    Reads bytes (pieces bytes) ∧
      ∀ {seen p}, Begun seen p → Reads (seen ++ bytes) (piecesFrom (some p) bytes) := by
  induction bytes with
  | nil =>
      refine ⟨.nil, fun h => ?_⟩
      exact .torn (h.torn fun b hb => by cases hb) .nil
  | cons b bytes ih =>
      have hfresh : Reads (b :: bytes) (pieces (b :: bytes)) := by
        rw [pieces, piecesFrom]
        rcases start_cases b with ⟨c, hstart, hencode⟩ | ⟨p, hstart, hbegun⟩ | ⟨hstart, hnone⟩
        · rw [hstart, ← List.singleton_append, ← hencode]
          exact .char c ih.1
        · rw [hstart]
          exact ih.2 hbegun
        · rw [hstart, ← List.singleton_append]
          exact .torn (torn_start hnone _) ih.1
      refine ⟨hfresh, fun {seen p} h => ?_⟩
      by_cases hb : p.low ≤ b ∧ b ≤ p.high
      · rw [List.append_cons]
        match hneed : p.need with
        | 0 => exact absurd hneed (Nat.ne_of_gt h.missing)
        | 1 =>
            rw [piecesFrom_complete hneed hb, ← h.complete hneed hb]
            exact .char _ ih.1
        | need + 2 =>
            rw [piecesFrom_step hneed hb]
            exact ih.2 (h.step hneed hb)
      · rw [piecesFrom_stop hb]
        refine .torn (h.torn fun b' hb' => ?_) hfresh
        cases hb'
        exact hb

theorem reads_pieces (bytes : List UInt8) : Reads bytes (pieces bytes) := (reads_piecesFrom bytes).1

theorem spells_decode (bytes : List UInt8) : Spells bytes (decode bytes) :=
  ⟨_, reads_pieces bytes, rfl⟩

end Machine

section Unique

variable {bytes rest rest' piece piece' : List UInt8}

theorem continuation_inj {k v v' : Nat} (h : continuation k v = continuation k v') :
    v % 64 ^ k = v' % 64 ^ k := by
  induction k with
  | zero => rw [Nat.pow_zero, Nat.mod_one, Nat.mod_one]
  | succ k ih =>
      obtain ⟨hbyte, hmore⟩ := List.cons.inj h
      have hdigit := congrArg UInt8.toNat hbyte
      rw [toNat_byte (by omega), toNat_byte (by omega), Nat.add_right_cancel_iff] at hdigit
      rw [Nat.pow_succ, Nat.mod_mul, Nat.mod_mul, hdigit, ih hmore]

theorem Leads.more_unique {v v' lead more more' : Nat} (h : Leads v lead more)
    (h' : Leads v' lead more') : more = more' := by
  rcases h with h | h | h | h <;> rcases h' with h' | h' | h' | h' <;> omega

theorem Leads.char_unique {v v' lead more : Nat} (h : Leads v lead more) (h' : Leads v' lead more)
    (hmod : v % 64 ^ more = v' % 64 ^ more) : v = v' := by
  rcases h with ⟨rfl, h⟩ | ⟨rfl, h⟩ | ⟨rfl, h⟩ | ⟨rfl, h⟩ <;>
    rcases h' with h' | h' | h' | h' <;> simp only [Nat.reducePow] at hmod <;> omega

theorem eq_of_encode_isPrefix {c c' : Char} (h : utf8EncodeChar c <+: utf8EncodeChar c') : c = c' := by
  obtain ⟨lead, more, hleads, hbyte, hencode⟩ := encode_eq c
  obtain ⟨lead', more', hleads', hbyte', hencode'⟩ := encode_eq c'
  rw [hencode, hencode', List.cons_prefix_cons] at h
  obtain ⟨hlead, hmore⟩ := h
  have hlead := congrArg UInt8.toNat hlead
  rw [toNat_byte hbyte, toNat_byte hbyte'] at hlead
  subst hlead
  obtain rfl := hleads.more_unique hleads'
  have hlast := hmore.eq_of_length (by rw [length_continuation, length_continuation])
  exact Char.toNat_inj.1 (hleads.char_unique hleads' (continuation_inj hlast))

theorem encode_append_inj {c c' : Char} (h : utf8EncodeChar c ++ rest = utf8EncodeChar c' ++ rest') :
    c = c' ∧ rest = rest' := by
  have hsame : c = c' := by
    rcases List.prefix_or_prefix_of_prefix (List.prefix_append _ rest)
      (h ▸ List.prefix_append _ rest') with hc | hc
    · exact eq_of_encode_isPrefix hc
    · exact (eq_of_encode_isPrefix hc).symm
  subst hsame
  exact ⟨rfl, List.append_cancel_left h⟩

theorem Torn.eq_of_isPrefix (h : Torn piece rest) (h' : Torn piece' rest')
    (he : piece ++ rest = piece' ++ rest') (hp : piece <+: piece') : piece = piece' := by
  obtain ⟨more, rfl⟩ := hp
  cases more with
  | nil => exact (List.append_nil _).symm
  | cons b more =>
      rw [List.append_assoc] at he
      have hlong : 1 < (piece ++ b :: more).length := by
        have := List.length_pos_iff.2 h.nonempty
        simp only [List.length_append, List.length_cons]
        omega
      obtain ⟨c, hc⟩ := h'.begins hlong
      refine absurd (List.IsPrefix.trans ⟨more, ?_⟩ hc) (h.longest b ?_ c)
      · rw [List.append_assoc]
        rfl
      · rw [List.append_cancel_left he]
        rfl

theorem Torn.append_inj (h : Torn piece rest) (h' : Torn piece' rest')
    (he : piece ++ rest = piece' ++ rest') : rest = rest' := by
  have hsame : piece = piece' := by
    rcases List.prefix_or_prefix_of_prefix (List.prefix_append _ rest)
      (he ▸ List.prefix_append _ rest') with hp | hp
    · exact h.eq_of_isPrefix h' he hp
    · exact (h'.eq_of_isPrefix h he.symm hp).symm
  subst hsame
  exact List.append_cancel_left he

theorem Reads.unique (h : Reads bytes cs) (h' : Reads bytes cs') : cs = cs' := by
  induction h generalizing cs' with
  | nil =>
      generalize he : ([] : List UInt8) = bytes at h'
      cases h' with
      | nil => rfl
      | char c =>
          obtain ⟨lead, more, _, _, hencode⟩ := encode_eq c
          rw [hencode] at he
          cases he
      | torn htorn => exact absurd (List.append_eq_nil_iff.1 he.symm).1 htorn.nonempty
  | @char bytes cs c h ih =>
      generalize he : utf8EncodeChar c ++ bytes = all at h'
      cases h' with
      | nil =>
          obtain ⟨lead, more, _, _, hencode⟩ := encode_eq c
          rw [hencode] at he
          cases he
      | char c' h' =>
          obtain ⟨rfl, rfl⟩ := encode_append_inj he
          rw [ih h']
      | torn htorn => exact absurd ⟨_, he⟩ (htorn.unread c)
  | @torn piece bytes cs h hrest ih =>
      generalize he : piece ++ bytes = all at h'
      cases h' with
      | nil => exact absurd (List.append_eq_nil_iff.1 he).1 h.nonempty
      | char c' h' => exact absurd ⟨_, he.symm⟩ (h.unread c')
      | torn h' hrest' =>
          obtain rfl := h.append_inj h' he
          rw [ih hrest']

theorem Spells.unique (h : Spells bytes text) (h' : Spells bytes text') : text = text' := by
  obtain ⟨cs, hreads, rfl⟩ := h
  obtain ⟨cs', hreads', rfl⟩ := h'
  rw [hreads.unique hreads']

end Unique

end Advisor.Text.Utf8

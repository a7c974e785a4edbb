import Advisor.Json.Document
import Mathlib.Data.List.DropRight
import Mathlib.Data.Option.Basic

/-!
What the scanners of JSON text take. Each decides by what it takes and by no more than the next character,
so what stands further on can be exchanged.
-/

namespace Advisor.Json.Document

def continuesNumber (c : Char) : Bool :=
  c.isDigit || c == '+' || c == '-' || c == '.' || c == 'e' || c == 'E'

/-- `tail` may stand in the place of `rest`: it begins alike, or with what ends a number, if at all. -/
def Follows (tail rest : List Char) : Prop :=
  ∀ c ∈ tail.head?, c ∈ rest.head? ∨ continuesNumber c = false

/-- What is taken of `cs` is found again in front of any other tail. -/
def Cut (R : (cs rest : List Char) → Prop) (cs rest : List Char) : Prop :=
  ∃ front, cs = front ++ rest ∧ ∀ tail, Follows tail rest → R (front ++ tail) tail

/-- A scanner that decides by what it takes. -/
def Local (R : (cs rest : List Char) → Prop) : Prop :=
  ∀ cs rest, R cs rest → Cut R cs rest

section Locality

variable {R S : List Char → List Char → Prop} {cs rest tail : List Char}

theorem Follows.append (h : Follows tail rest) (front : List Char) :
    Follows (front ++ tail) (front ++ rest) := by
  cases front with
  | nil => exact h
  | cons c front => exact fun _ hc => .inl hc

theorem follows_nil (rest : List Char) : Follows [] rest := by
  intro c hc
  cases hc

theorem follows_cons {c : Char} (hc : continuesNumber c = false) (cs rest : List Char) :
    Follows (c :: cs) rest := by
  intro d hd
  cases hd
  exact .inr hc

theorem Cut.comp {mid : List Char} (hR : Cut R cs mid) (hS : Cut S mid rest) :
    Cut (fun cs rest => ∃ mid, R cs mid ∧ S mid rest) cs rest := by
  obtain ⟨front, rfl, hfront⟩ := hR
  obtain ⟨back, rfl, hback⟩ := hS
  refine ⟨front ++ back, (List.append_assoc ..).symm, fun tail htail => ⟨back ++ tail, ?_, ?_⟩⟩
  · rw [List.append_assoc]
    exact hfront _ (htail.append back)
  · exact hback tail htail

theorem Cut.imp (h : Cut R cs rest) (himp : ∀ cs rest, R cs rest → S cs rest) : Cut S cs rest := by
  obtain ⟨front, hcs, hfront⟩ := h
  exact ⟨front, hcs, fun tail htail => himp _ _ (hfront tail htail)⟩

theorem Cut.suffix (h : Cut R cs rest) : rest <:+ cs := by
  obtain ⟨front, rfl, -⟩ := h
  exact List.suffix_append ..

theorem Local.comp (hR : Local R) (hS : Local S) :
    Local fun cs rest => ∃ mid, R cs mid ∧ S mid rest := by
  rintro cs rest ⟨mid, hr, hs⟩
  exact (hR cs mid hr).comp (hS mid rest hs)

end Locality

/-! White space, and a word after it. -/

@[simp] theorem skipSpace_skipSpace (cs : List Char) : skipSpace (skipSpace cs) = skipSpace cs :=
  List.dropWhile_idempotent isSpace cs

theorem skipSpace_append {lead : List Char} (h : ∀ c ∈ lead, isSpace c) (cs : List Char) :
    skipSpace (lead ++ cs) = skipSpace cs :=
  List.dropWhile_append_of_pos h

theorem skipSpace_cons {c : Char} (hc : isSpace c = false) (cs : List Char) :
    skipSpace (c :: cs) = c :: cs :=
  List.dropWhile_cons_of_neg (by simp [hc])

theorem Local.skip {R : List Char → List Char → Prop} (hR : Local R) (hnil : ∀ rest, ¬ R [] rest) :
    Local fun cs rest => R (skipSpace cs) rest := by
  intro cs rest h
  obtain ⟨front, hfront, hlocal⟩ := hR _ rest h
  obtain _ | ⟨c, front⟩ := front
  · exact absurd (hlocal [] (follows_nil rest)) (hnil [])
  have hc : isSpace c = false := by
    have hhead := List.head?_dropWhile_not isSpace cs
    rw [show cs.dropWhile isSpace = c :: (front ++ rest) from hfront] at hhead
    simpa using hhead
  refine ⟨cs.takeWhile isSpace ++ c :: front, ?_, fun tail htail => ?_⟩
  · rw [List.append_assoc, ← hfront]
    exact List.takeWhile_append_dropWhile.symm
  · dsimp only
    rw [List.append_assoc, skipSpace_append fun d hd => List.mem_takeWhile_imp hd,
      List.cons_append, skipSpace_cons hc]
    exact hlocal tail htail

/-- The text begins with a word, after white space. -/
def Opens (word cs rest : List Char) : Prop :=
  skipSpace cs = word ++ rest

theorem opens_local (c : Char) (word : List Char) : Local (Opens (c :: word)) := by
  have hword : Local fun cs rest => cs = c :: word ++ rest :=
    fun cs rest h => ⟨c :: word, h, fun tail _ => rfl⟩
  exact hword.skip fun rest h => nomatch h

/-! String literals, one piece at a time. -/

section Strings

variable {done ps : List Piece} {cs : List Char}

theorem scanString_unit {a b c d : Char} {n : Nat} (h : hexUnit? a b c d = some n) :
    scanString done ('\\' :: 'u' :: a :: b :: c :: d :: cs) = scanString (.unit n :: done) cs := by
  rw [scanString, h]

theorem scanString_escape {e c : Char} (h : simpleEscape? e = some c) :
    scanString done ('\\' :: e :: cs) = scanString (.char c :: done) cs := by
  have hu : e ≠ 'u' := by
    rintro rfl
    cases h
  rw [scanString, h]
  exact fun _ _ _ _ _ he => absurd he hu

theorem scanString_char {c : Char} (hquote : c ≠ '"') (h : ¬ (c.toNat < 0x20 || c == '\\')) :
    scanString done (c :: cs) = scanString (.char c :: done) cs := by
  have hslash : c ≠ '\\' := by
    rintro rfl
    exact h (by decide)
  rw [scanString, if_neg h]
  · exact hquote
  · exact fun _ _ _ _ _ hc => absurd hc hslash
  · exact fun _ _ hc => absurd hc hslash

theorem scanString_local (done ps : List Piece) :
    Local fun cs rest => scanString done cs = some (ps, rest) := by
  intro cs rest h
  suffices ∃ front, cs = front ++ rest ∧ ∀ tail, scanString done (front ++ tail) = some (ps, tail) by
    obtain ⟨front, hcs, hfront⟩ := this
    exact ⟨front, hcs, fun tail _ => hfront tail⟩
  fun_induction scanString done cs with
  | case1 | case4 | case6 | case7 => cases h
  | case2 done cs =>
      cases h
      exact ⟨['"'], rfl, fun tail => rfl⟩
  | case3 done a b c d cs n hunit ih =>
      obtain ⟨front, rfl, hfront⟩ := ih h
      exact ⟨'\\' :: 'u' :: a :: b :: c :: d :: front, rfl,
        fun tail => (scanString_unit hunit).trans (hfront tail)⟩
  | case5 done e cs _ c hescape ih =>
      obtain ⟨front, rfl, hfront⟩ := ih h
      exact ⟨'\\' :: e :: front, rfl, fun tail => (scanString_escape hescape).trans (hfront tail)⟩
  | case8 done c cs hquote _ _ hplain ih =>
      obtain ⟨front, rfl, hfront⟩ := ih h
      exact ⟨c :: front, rfl, fun tail => (scanString_char hquote hplain).trans (hfront tail)⟩

end Strings

/-! Number literals, by their parts. -/

section Numbers

def signOf : List Char → Bool × List Char
  | '-' :: cs => (true, cs)
  | cs => (false, cs)

def fractionOf : List Char → Option (Option (List Nat) × List Char)
  | '.' :: cs =>
      let (ds, cs) := digits cs
      if ds.isEmpty then none else some (some ds, cs)
  | cs => some (none, cs)

def powerSign : List Char → Bool × List Char
  | '-' :: cs => (true, cs)
  | '+' :: cs => (false, cs)
  | cs => (false, cs)

def powerOf : List Char → Option (Option (Bool × List Nat) × List Char)
  | c :: cs =>
      if c == 'e' || c == 'E' then
        let (minus, cs) := powerSign cs
        let (ds, cs) := digits cs
        if ds.isEmpty then none else some (some (minus, ds), cs)
      else some (none, c :: cs)
  | [] => some (none, [])

theorem fractionOf_bind (cs : List Char) (k : Option (List Nat) × List Char → Option α) :
    fractionOf cs >>= k = match cs with
      | '.' :: cs =>
          match digits cs with
          | (ds, cs) => if ds.isEmpty then none >>= k else some (some ds, cs) >>= k
      | cs => some (none, cs) >>= k := by
  unfold fractionOf
  split
  · dsimp only
    split <;> rfl
  · rfl

theorem powerOf_bind (cs : List Char) (k : Option (Bool × List Nat) × List Char → Option α) :
    powerOf cs >>= k = match cs with
      | c :: cs =>
          if c == 'e' || c == 'E' then
            match powerSign cs with
            | (minus, cs) =>
                match digits cs with
                | (ds, cs) => if ds.isEmpty then none >>= k else some (some (minus, ds), cs) >>= k
          else some (none, c :: cs) >>= k
      | [] => some (none, []) >>= k := by
  unfold powerOf
  split
  · dsimp only
    split
    · split <;> rfl
    · rfl
  · rfl

theorem scanNumber_eq (cs : List Char) : scanNumber cs = do
    let (negative, cs) := signOf cs
    let (whole, cs) := digits cs
    guard (!whole.isEmpty && (whole.length == 1 || whole.head? != some 0))
    let (fraction, cs) ← fractionOf cs
    let (power, cs) ← powerOf cs
    return (⟨negative, whole, fraction, power⟩, cs) := by
  simp only [fractionOf_bind, powerOf_bind]
  rfl

theorem scanNumber_eq_some {cs rest : List Char} {l : Literal} :
    scanNumber cs = some (l, rest) ↔
      (!l.whole.isEmpty && (l.whole.length == 1 || l.whole.head? != some 0)) ∧
      ∃ cs₁, signOf cs = (l.negative, cs₁) ∧ ∃ cs₂, digits cs₁ = (l.whole, cs₂) ∧
        ∃ cs₃, fractionOf cs₂ = some (l.fraction, cs₃) ∧ powerOf cs₃ = some (l.power, rest) := by
  obtain ⟨negative, whole, fraction, power⟩ := l
  rw [scanNumber_eq]
  cases hsign : signOf cs with | mk sign cs₁ =>
  cases hwhole : digits cs₁ with | mk ds cs₂ =>
  simp only [hwhole, Option.bind_eq_bind, Option.bind_eq_some_iff, Prod.exists, Option.pure_def,
    Option.some.injEq, Prod.mk.injEq, Literal.mk.injEq]
  have hguard {p : Prop} [Decidable p] : (∃ u, guard p = some u) ↔ p := by
    by_cases hp : p <;> simp [guard, hp]
  rw [exists_and_right, hguard]
  constructor
  · rintro ⟨hform, _, cs₃, hfraction, _, _, hpower, ⟨rfl, rfl, rfl, rfl⟩, rfl⟩
    exact ⟨hform, cs₁, ⟨rfl, rfl⟩, cs₂, hwhole, cs₃, hfraction, hpower⟩
  · rintro ⟨hform, _, ⟨rfl, rfl⟩, _, hdigits, cs₃, hfraction, hpower⟩
    rw [hwhole] at hdigits
    cases hdigits
    exact ⟨hform, fraction, cs₃, hfraction, power, rest, hpower, ⟨rfl, rfl, rfl, rfl⟩, rfl⟩

theorem Follows.eq_cons {c : Char} {tail rest : List Char} (h : Follows (c :: tail) rest)
    (hc : continuesNumber c) : ∃ more, rest = c :: more := by
  rcases h c rfl with hhead | hstop
  · exact List.head?_eq_some_iff.1 hhead
  · rw [hc] at hstop
    cases hstop

theorem digits_local (ds : List Nat) : Local fun cs rest => digits cs = (ds, rest) := by
  intro cs rest h
  obtain ⟨rfl, rfl⟩ := Prod.mk.injEq .. ▸ h
  refine ⟨cs.takeWhile Char.isDigit, List.takeWhile_append_dropWhile.symm, fun tail htail => ?_⟩
  have hdigits : ∀ c ∈ cs.takeWhile Char.isDigit, c.isDigit := fun c hc => List.mem_takeWhile_imp hc
  have hstop : tail.takeWhile Char.isDigit = [] ∧ tail.dropWhile Char.isDigit = tail := by
    cases tail with
    | nil => exact ⟨rfl, rfl⟩
    | cons c tail =>
        have hc : c.isDigit = false := by
          by_contra hdigit
          rw [Bool.not_eq_false] at hdigit
          obtain ⟨more, hmore⟩ := htail.eq_cons (by simp [continuesNumber, hdigit])
          have hhead := List.head?_dropWhile_not Char.isDigit cs
          rw [hmore] at hhead
          simp [hdigit] at hhead
        simp [hc]
  dsimp only [digits]
  rw [List.takeWhile_append_of_pos hdigits, List.dropWhile_append_of_pos hdigits, hstop.1,
    hstop.2, List.append_nil]

theorem signOf_local (negative : Bool) : Local fun cs rest => signOf cs = (negative, rest) := by
  intro cs rest h
  unfold signOf at h
  split at h
  · cases h
    exact ⟨['-'], rfl, fun tail _ => rfl⟩
  · rename_i hplain
    cases h
    refine ⟨[], rfl, fun tail htail => ?_⟩
    dsimp only [List.nil_append]
    unfold signOf
    split
    · obtain ⟨more, hmore⟩ := htail.eq_cons (by decide)
      exact absurd hmore (hplain more)
    · rfl

theorem powerSign_local (minus : Bool) : Local fun cs rest => powerSign cs = (minus, rest) := by
  intro cs rest h
  unfold powerSign at h
  split at h
  · cases h
    exact ⟨['-'], rfl, fun tail _ => rfl⟩
  · cases h
    exact ⟨['+'], rfl, fun tail _ => rfl⟩
  · rename_i hminus hplus
    cases h
    refine ⟨[], rfl, fun tail htail => ?_⟩
    dsimp only [List.nil_append]
    unfold powerSign
    split
    · obtain ⟨more, hmore⟩ := htail.eq_cons (by decide)
      exact absurd hmore (hminus more)
    · obtain ⟨more, hmore⟩ := htail.eq_cons (by decide)
      exact absurd hmore (hplus more)
    · rfl

theorem fractionOf_local (fraction : Option (List Nat)) :
    Local fun cs rest => fractionOf cs = some (fraction, rest) := by
  intro cs rest h
  unfold fractionOf at h
  split at h
  · rename_i cs
    cases hdigits : digits cs with | mk ds rest' =>
    simp only [hdigits] at h
    split at h
    · cases h
    · rename_i hsome
      cases h
      obtain ⟨front, hcs, hfront⟩ := digits_local ds cs rest hdigits
      refine ⟨'.' :: front, congrArg _ hcs, fun tail htail => ?_⟩
      have hfound := hfront tail htail
      simp only [List.cons_append, fractionOf, hfound, if_neg hsome]
  · rename_i hplain
    cases h
    refine ⟨[], rfl, fun tail htail => ?_⟩
    dsimp only [List.nil_append]
    unfold fractionOf
    split
    · obtain ⟨more, hmore⟩ := htail.eq_cons (by decide)
      exact absurd hmore (hplain more)
    · rfl

theorem powerOf_plain {cs : List Char} (h : ∀ c ∈ cs.head?, ¬ (c == 'e' || c == 'E')) :
    powerOf cs = some (none, cs) := by
  cases cs with
  | nil => rfl
  | cons c cs => exact if_neg (h c rfl)

theorem powerOf_local (power : Option (Bool × List Nat)) :
    Local fun cs rest => powerOf cs = some (power, rest) := by
  intro cs rest h
  by_cases hplain : ∀ c ∈ cs.head?, ¬ (c == 'e' || c == 'E')
  · rw [powerOf_plain hplain] at h
    cases h
    refine ⟨[], rfl, fun tail htail => powerOf_plain fun c hc hmark => ?_⟩
    have hgoes : continuesNumber c := by
      rcases Bool.or_eq_true_iff.1 hmark with he | he <;> rw [eq_of_beq he] <;> rfl
    rcases htail c hc with hrest | hstop
    · exact hplain c hrest hmark
    · rw [hgoes] at hstop
      cases hstop
  · push Not at hplain
    obtain ⟨c, hc, hmark⟩ := hplain
    obtain ⟨cs, rfl⟩ := List.head?_eq_some_iff.1 hc
    rw [powerOf, if_pos hmark] at h
    cases hsign : powerSign cs with | mk minus mid =>
    cases hdigits : digits mid with | mk ds rest' =>
    simp only [hsign, hdigits] at h
    split at h
    · cases h
    · rename_i hsome
      cases h
      obtain ⟨front, hcs, hfront⟩ :=
        (powerSign_local minus).comp (digits_local ds) cs rest ⟨mid, hsign, hdigits⟩
      refine ⟨c :: front, congrArg _ hcs, fun tail htail => ?_⟩
      obtain ⟨mid, hsign, hdigits⟩ := hfront tail htail
      simp only [List.cons_append, powerOf, if_pos hmark, hsign, hdigits, if_neg hsome]

theorem scanNumber_local (l : Literal) : Local fun cs rest => scanNumber cs = some (l, rest) := by
  intro cs rest h
  obtain ⟨hform, hparts⟩ := scanNumber_eq_some.1 h
  obtain ⟨front, hcs, hfront⟩ := ((signOf_local l.negative).comp <| (digits_local l.whole).comp <|
    (fractionOf_local l.fraction).comp <| powerOf_local l.power) cs rest hparts
  exact ⟨front, hcs, fun tail htail => scanNumber_eq_some.2 ⟨hform, hfront tail htail⟩⟩

theorem skipNumber_local (l : Literal) :
    Local fun cs rest => scanNumber (skipSpace cs) = some (l, rest) :=
  (scanNumber_local l).skip fun _ h => nomatch h

end Numbers

end Advisor.Json.Document

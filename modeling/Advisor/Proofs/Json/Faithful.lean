import Advisor.Proofs.Json.RoundTrip
import Mathlib.Algebra.Group.Nat.Defs

/-!
A line tells its value: a whole number of at most 64 bits reads back from its digits, and what is read of a
value whose numbers do is read of no other value.
-/

namespace Advisor.Json

open Document

/-! Whole numbers, by their decimal digits. -/

section Whole

theorem natOfDigits_toDigits (n : Nat) : natOfDigits ((Nat.toDigits 10 n).map digit) = n := by
  have hstep : (fun (m : Nat) c => m * 10 + digit c) = fun m c => 10 * m + (c.toNat - '0'.toNat) :=
    funext₂ fun m c => congrArg (· + digit c) (Nat.mul_comm m 10)
  calc natOfDigits ((Nat.toDigits 10 n).map digit)
      = Nat.ofDigitChars 10 (Nat.toDigits 10 n) 0 := by
        rw [natOfDigits, List.foldl_map, hstep, Nat.ofDigitChars]
    _ = n := Nat.ofDigitChars_ten_toDigits

theorem le_foldl_digits (start : Nat) (ds : List Nat) : start ≤ ds.foldl (fun n d => n * 10 + d) start := by
  induction ds generalizing start with
  | nil => exact Nat.le_refl start
  | cons d ds ih =>
      have hrest := ih (start * 10 + d)
      rw [List.foldl_cons]
      omega

theorem significand_of_lt {start : Nat} {ds : List Nat}
    (h : ds.foldl (fun n d => n * 10 + d) start < 18446744073709551616) :
    significand start ds = (ds.foldl (fun n d => n * 10 + d) start, 0) := by
  induction ds generalizing start with
  | nil => rfl
  | cons d ds ih =>
      rw [List.foldl_cons] at h ⊢
      rw [significand, if_pos (Nat.lt_of_le_of_lt (le_foldl_digits _ ds) h), ih h]

theorem digit_digitChar {n : Nat} (h : n < 10) : digit n.digitChar = n := by
  rw [digit, Nat.toNat_digitChar_of_lt_ten h]
  omega

theorem digit_head_toDigits {n : Nat} (h : 0 < n) : ∀ c ∈ (Nat.toDigits 10 n).head?, digit c ≠ 0 := by
  induction n using Nat.strong_induction_on with
  | _ n ih =>
      by_cases hten : 10 ≤ n
      · rw [Nat.toDigits_of_base_le (by decide) hten, List.head?_append_of_ne_nil _ Nat.toDigits_ne_nil]
        exact ih (n / 10) (by omega) (by omega)
      · rw [Nat.toDigits_of_lt_base (by omega)]
        rintro c ⟨⟩
        rw [digit_digitChar (by omega)]
        omega

theorem digits_toDigits (n : Nat) :
    digits (Nat.toDigits 10 n) = ((Nat.toDigits 10 n).map digit, []) := by
  have hdigits : ∀ c ∈ Nat.toDigits 10 n, c.isDigit = true := fun c hc =>
    Nat.isDigit_of_mem_toDigits (by decide) (by decide) hc
  rw [digits, List.takeWhile_eq_self_iff.2 hdigits, List.dropWhile_eq_nil_iff.2 hdigits]

theorem signOf_toDigits (n : Nat) : signOf (Nat.toDigits 10 n) = (false, Nat.toDigits 10 n) := by
  have hdigits : '-' ∉ Nat.toDigits 10 n := fun hc =>
    absurd (Nat.isDigit_of_mem_toDigits (by decide) (by decide) hc) (by decide)
  unfold signOf
  split
  · rename_i hhead
    rw [hhead] at hdigits
    exact absurd List.mem_cons_self hdigits
  · rfl

theorem scanNumber_toDigits (n : Nat) :
    scanNumber (Nat.toDigits 10 n) = some (⟨false, (Nat.toDigits 10 n).map digit, none, none⟩, []) := by
  refine scanNumber_eq_some.2 ⟨?_, _, signOf_toDigits n, [], digits_toDigits n, [], rfl, rfl⟩
  have hnil : ((Nat.toDigits 10 n).map digit).isEmpty = false := by
    simp [Nat.toDigits_ne_nil]
  rw [hnil]
  by_cases hten : n < 10
  · rw [Nat.toDigits_of_lt_base hten]
    rfl
  · have hhead := digit_head_toDigits (n := n) (by omega)
    simp only [List.head?_map, Bool.not_false, Bool.true_and, Bool.or_eq_true, bne_iff_ne, ne_eq,
      Option.map_eq_some_iff, not_exists, not_and]
    exact .inr fun c hc => hhead c hc

theorem legible_ofNat {n : Nat} (h : n < 2 ^ 64) : (ofNat n).Legible := by
  have hvalue := natOfDigits_toDigits n
  rw [natOfDigits] at hvalue
  refine ⟨⟨false, (Nat.toDigits 10 n).map digit, none, none⟩, ?_, ?_⟩
  · have htext : (Number.text (.whole n)).toList = Nat.toDigits 10 n := String.toList_ofList
    rw [htext, scanNumber_toDigits]
  · have hall : significand 0 ((Nat.toDigits 10 n).map digit) = (n, 0) := by
      rw [significand_of_lt (hvalue.symm ▸ h), hvalue]
    simp [Literal.number?, hall]

end Whole

section Options

variable {f : α → Json}

theorem legible_ofOption (hf : ∀ a, (f a).Legible) : ∀ a?, (ofOption f a?).Legible
  | none => trivial
  | some a => hf a

theorem ofOption_injective (hf : Function.Injective f) (hnull : ∀ a, f a ≠ .null) :
    Function.Injective (ofOption f) := by
  intro a b h
  match a, b with
  | none, none => rfl
  | some a, some b => exact congrArg some (hf h)
  | none, some b => exact absurd h.symm (hnull b)
  | some a, none => exact absurd h (hnull a)

end Options

theorem legibleItems_iff {items : List Json} : LegibleItems items ↔ ∀ v ∈ items, v.Legible := by
  induction items with
  | nil => simp [LegibleItems]
  | cons _ _ ih => simp [LegibleItems, ih]

section Injective

theorem str_injective : Function.Injective str := fun _ _ => str.inj

theorem ofNat_injective : Function.Injective ofNat := fun _ _ h =>
  Int.ofNat.inj (Number.whole.inj (num.inj h))

theorem ofFloat_injective : Function.Injective ofFloat := fun _ _ h =>
  Number.double.inj (num.inj h)

mutual

theorem eq_of_ofJson {v w : Json} (h : ofJson v = ofJson w) : v = w := by
  match v, w with
  | .null, .null => rfl
  | .bool b, .bool c => exact congrArg _ (Document.bool.inj h)
  | .num m, .num n => exact congrArg _ (Option.some.inj (Document.num.inj h))
  | .str s, .str t => exact congrArg _ (Option.some.inj (Document.str.inj h))
  | .arr vs, .arr ws => exact congrArg _ (eq_of_ofItems (Document.arr.inj h).1)
  | .obj ms, .obj ns => exact congrArg _ (eq_of_ofMembers (Document.obj.inj h).1)

theorem eq_of_ofItems {vs ws : List Json} (h : ofItems vs = ofItems ws) : vs = ws := by
  match vs, ws with
  | [], [] => rfl
  | v :: vs, w :: ws =>
      obtain ⟨hfirst, hrest⟩ := List.cons.inj h
      rw [eq_of_ofJson hfirst, eq_of_ofItems hrest]

theorem eq_of_ofMembers {ms ns : List (String × Json)} (h : ofMembers ms = ofMembers ns) : ms = ns := by
  match ms, ns with
  | [], [] => rfl
  | (key, v) :: ms, (key', w) :: ns =>
      obtain ⟨hfirst, hrest⟩ := List.cons.inj h
      obtain ⟨hkey, hvalue⟩ := Prod.mk.inj hfirst
      rw [Option.some.inj hkey, eq_of_ofJson hvalue, eq_of_ofMembers hrest]

end

theorem read_compact {v : Json} (h : v.Legible) : Document.read v.compact.toList = (.ofJson v, some []) := by
  have hreads := reads_compact v h (follows_nil [])
  rw [List.append_nil] at hreads
  exact read_eq_some.2 hreads

end Injective

end Advisor.Json

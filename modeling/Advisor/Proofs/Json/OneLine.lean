import Advisor.Stream.Event

/-!
A value is written on one line: no control character stands in its text, whatever stands in its strings.
-/

namespace Advisor

namespace Json

def Printable (c : Char) : Prop := 0x20 ≤ c.toNat

instance (c : Char) : Decidable (Printable c) := inferInstanceAs (Decidable (_ ≤ _))

theorem printable_of_isDigit {c : Char} (h : c.isDigit = true) : Printable c := by
  have hzero : '0'.toNat ≤ c.toNat := by
    simp only [Char.isDigit, Bool.and_eq_true, decide_eq_true_eq] at h
    exact h.1
  exact Nat.le_trans (by decide) hzero

theorem printable_toDigits (n : Nat) : ∀ c ∈ Nat.toDigits 10 n, Printable c := fun _ hc =>
  printable_of_isDigit (Nat.isDigit_of_mem_toDigits (by decide) (by decide) hc)

theorem printable_of_all {cs : List Char} (h : cs.all (Printable ·)) : ∀ c ∈ cs, Printable c := by
  simpa using h

/-- A text without control characters. -/
def Printed (s : String) : Prop := ∀ c ∈ s.toList, Printable c

instance (s : String) : Decidable (Printed s) :=
  List.decidableBAll Printable s.toList

theorem printed_ofList {cs : List Char} : Printed (.ofList cs) ↔ ∀ c ∈ cs, Printable c := by
  rw [Printed, String.toList_ofList]

theorem Printed.append {s t : String} (hs : Printed s) (ht : Printed t) : Printed (s ++ t) := by
  intro c hc
  rw [String.toList_append, List.mem_append] at hc
  exact hc.elim (hs c) (ht c)

theorem Printed.intercalate {sep : String} (hsep : Printed sep) {parts : List String}
    (hparts : ∀ part ∈ parts, Printed part) : Printed (sep.intercalate parts) := by
  induction parts with
  | nil => simp [Printed]
  | cons first rest ih =>
      obtain ⟨hfirst, hrest⟩ := List.forall_mem_cons.1 hparts
      cases rest with
      | nil => simpa [String.intercalate_singleton] using hfirst
      | cons second rest =>
          rw [String.intercalate_cons_cons]
          exact (hfirst.append hsep).append (ih hrest)

theorem printed_repr (n : Nat) : Printed n.repr :=
  printed_ofList.2 (printable_toDigits n)

theorem printed_int (n : Int) : Printed (toString n) := by
  cases n with
  | ofNat n => exact printed_repr n
  | negSucc n => exact Printed.append (s := "-") (by decide) (printed_repr (n + 1))

theorem printed_decimal (negative : Bool) (d : Number.Decimal) : Printed (d.text negative) := by
  have hdigits := printable_toDigits d.digits
  have hzeros (n : Nat) : ∀ c ∈ List.replicate n '0', Printable c := by
    intro c hc
    rw [List.eq_of_mem_replicate hc]
    decide
  have hsigned {body : List Char} (h : ∀ c ∈ body, Printable c) :
      Printed (.ofList (if negative then '-' :: body else body)) := by
    rw [printed_ofList]
    split
    · exact List.forall_mem_cons.2 ⟨by decide, h⟩
    · exact h
  refine hsigned ?_
  split
  · exact printable_of_all (by decide)
  split
  · simp only [List.forall_mem_append]
    exact ⟨⟨hdigits, hzeros _⟩, printable_of_all (by decide)⟩
  split
  · simp only [List.forall_mem_append, List.forall_mem_cons]
    exact ⟨fun c hc => hdigits c (List.mem_of_mem_take hc), by decide,
      fun c hc => hdigits c (List.mem_of_mem_drop hc)⟩
  split
  · simp only [List.forall_mem_append, List.forall_mem_cons]
    exact ⟨⟨by decide, by decide, hzeros _⟩, hdigits⟩
  have hexponent (scale : Int) : ∀ c ∈ 'e' :: (if scale < 0 then '-' else '+') ::
      Nat.toDigits 10 scale.natAbs, Printable c := by
    simp only [List.forall_mem_cons]
    refine ⟨by decide, ?_, printable_toDigits _⟩
    split <;> decide
  generalize Nat.toDigits 10 d.digits = digits at hdigits ⊢
  match digits with
  | [] => exact hexponent _
  | [digit] => exact List.forall_mem_cons.2 ⟨hdigits digit (.head _), hexponent _⟩
  | digit :: more :: rest =>
      obtain ⟨hdigit, hmore⟩ := List.forall_mem_cons.1 hdigits
      refine List.forall_mem_append.2 ⟨?_, hexponent _⟩
      exact List.forall_mem_cons.2 ⟨hdigit, List.forall_mem_cons.2 ⟨by decide, hmore⟩⟩

theorem printed_number (n : Number) : Printed n.text := by
  unfold Number.text
  split
  · exact printed_int _
  · unfold Advisor.Number.text?
    cases Advisor.Number.Binary.ofFloat? _ with
    | none => exact (by decide : Printed "null")
    | some x => exact printed_decimal _ _
  · split
    · decide
    · exact printed_decimal _ _

theorem printable_hexDigit : ∀ n < 32, Printable (hexDigit n) := by decide

theorem printable_escape (c : Char) : ∀ e ∈ escape c, Printable e := by
  unfold escape
  split
  all_goals try exact printable_of_all (by decide)
  split
  · rename_i hcontrol
    simp only [List.forall_mem_cons]
    refine ⟨by decide, by decide, by decide, by decide, ?_, ?_, by simp⟩
    · exact printable_hexDigit _ (by omega)
    · exact printable_hexDigit _ (by omega)
  · rename_i hshows
    simpa [Printable] using hshows

theorem printed_quote (s : String) : Printed (quote s) := by
  rw [quote, printed_ofList]
  simp only [List.forall_mem_append, List.forall_mem_cons]
  refine ⟨⟨by decide, fun e he => ?_⟩, by decide, by simp⟩
  obtain ⟨c, _, he⟩ := List.mem_flatMap.1 he
  exact printable_escape c e he

mutual

theorem printed_compact : ∀ v : Json, Printed v.compact
  | .null => by decide
  | .bool b => by cases b <;> decide
  | .num n => printed_number n
  | .str s => printed_quote s
  | .arr items =>
      (Printed.append (by decide) (.intercalate (by decide) (printed_compactItems items))).append
        (by decide)
  | .obj members =>
      (Printed.append (by decide) (.intercalate (by decide) (printed_compactMembers members))).append
        (by decide)

theorem printed_compactItems : ∀ items : List Json, ∀ part ∈ compactItems items, Printed part
  | [] => by simp [compactItems]
  | v :: vs => List.forall_mem_cons.2 ⟨printed_compact v, printed_compactItems vs⟩

theorem printed_compactMembers :
    ∀ members : List (String × Json), ∀ part ∈ compactMembers members, Printed part
  | [] => by simp [compactMembers]
  | (k, v) :: ms => List.forall_mem_cons.2
      ⟨((printed_quote k).append (by decide)).append (printed_compact v), printed_compactMembers ms⟩

end

theorem Printed.newline_not_mem {s : String} (h : Printed s) : '\n' ∉ s.toList := fun hmem =>
  absurd (h '\n' hmem) (by decide)

theorem Printed.return_not_mem {s : String} (h : Printed s) : '\r' ∉ s.toList := fun hmem =>
  absurd (h '\r' hmem) (by decide)

end Json

end Advisor

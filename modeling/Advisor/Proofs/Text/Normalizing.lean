import Advisor.Proofs.Text.Lowering
import Advisor.Proofs.Text.Trimming

/-!
Text in lower case with single spaces. Two texts of which one goes on where the other ends differ in it, and
so do two that end in different letters.
-/

namespace Advisor.Text

variable {s t : String} {c : Char}

theorem words_append_space (s t : String) : words (s ++ " " ++ t) = words s ++ words t := by
  have hchars : (s ++ " " ++ t).toList = s.toList ++ ' ' :: t.toList := by simp
  rw [words, pieces, hchars, List.splitOnP_append_cons _ _ (by decide), List.filter_append, List.map_append]
  rfl

def lead (ws : List String) : String :=
  if ws = [] then "" else " ".intercalate ws ++ " "

theorem normalize_append_space (s : String) (ht : words t ≠ []) :
    normalize (s ++ " " ++ t) = lower (lead (words s) ++ " ".intercalate (words t)) := by
  rw [normalize, words_append_space, lead]
  split
  · rename_i hs
    rw [hs, List.nil_append, String.empty_append]
  · rename_i hs
    rw [String.intercalate_append_of_ne_nil hs ht]

theorem lowerChar_ne_nil (c : Char) : lowerChar c ≠ [] := by
  unfold lowerChar
  simp only
  split
  · simp
  split
  · simp
  split <;> simp

theorem getLast?_lowerAfter (hc : Lowered c) (before cs : List Char) :
    (lowerAfter before (cs ++ [c])).getLast? = some c := by
  induction cs generalizing before with
  | nil =>
      rw [List.nil_append, lowerAfter_of_lowered (by simpa using hc)]
      rfl
  | cons d cs ih =>
      rw [List.cons_append, lowerAfter, List.getLast?_append, ih]
      rfl

/-- The last character of a text's last word, if that has no other lower-case form. -/
structure Ends (t : String) (c : Char) : Prop where
  last : (" ".intercalate (words t)).toList.getLast? = some c
  unmoved : Unmoved c

instance (t : String) (c : Char) : Decidable (Ends t c) :=
  decidable_of_iff ((" ".intercalate (words t)).toList.getLast? = some c ∧ Unmoved c)
    ⟨fun h => ⟨h.1, h.2⟩, fun h => ⟨h.last, h.unmoved⟩⟩

theorem Ends.words_ne_nil (h : Ends t c) : words t ≠ [] := by
  intro hnil
  have hlast := h.last
  rw [hnil] at hlast
  cases hlast

theorem Ends.getLast?_normalize (h : Ends t c) (s : String) :
    (normalize (s ++ " " ++ t)).toList.getLast? = some c := by
  obtain ⟨front, hfront⟩ := List.getLast?_eq_some_iff.1 h.last
  rw [normalize_append_space s h.words_ne_nil, lower, String.toList_ofList, String.toList_append, hfront,
    ← List.append_assoc]
  exact getLast?_lowerAfter h.unmoved.lowered [] _

theorem Ends.normalize_ne (h : Ends t c) (s : String) : normalize s ≠ normalize (s ++ " " ++ t) := by
  intro heq
  rw [normalize_append_space s h.words_ne_nil, normalize] at heq
  have hlength := congrArg (fun u => u.toList.length) heq
  obtain ⟨front, hfront⟩ := List.getLast?_eq_some_iff.1 h.last
  have hpos := List.length_pos_of_ne_nil (lowerChar_ne_nil c)
  simp only [lower, String.toList_ofList, length_lowerAfter, String.toList_append, hfront,
    List.flatMap_append, List.length_append, List.flatMap_singleton] at hlength
  have hlead : ((" ".intercalate (words s)).toList.flatMap lowerChar).length ≤
      ((lead (words s)).toList.flatMap lowerChar).length := by
    rw [lead]
    split
    · rename_i hs
      rw [hs]
      rfl
    · rw [String.toList_append, List.flatMap_append, List.length_append]
      exact Nat.le_add_right _ _
  omega

end Advisor.Text

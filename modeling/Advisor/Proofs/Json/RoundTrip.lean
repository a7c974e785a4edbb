import Advisor.Json.Printer
import Advisor.Proofs.Json.Reading

/-!
What is written reads back. A number does so as far as its own digits do; everything else does always.
-/

namespace Advisor.Json

open Document

/-! Strings, one character at a time. -/

section Strings

theorem hexUnit?_hexDigit : ∀ n < 32,
    hexUnit? '0' '0' (hexDigit (n / 16)) (hexDigit (n % 16)) = some n := by
  decide

theorem joinPieces_unit {n : Nat} (h : n < 0xD800) (ps : List Piece) :
    joinPieces (.unit n :: ps) = (joinPieces ps).map (Char.ofNat n :: ·) := by
  have htrail : ¬ (0xDC00 ≤ n ∧ n ≤ 0xDFFF) := by omega
  have hlead : ¬ (0xD800 ≤ n ∧ n ≤ 0xDBFF) := by omega
  rcases ps with _ | ⟨_ | _, ps⟩ <;> simp only [joinPieces, if_neg htrail, if_neg hlead]

theorem scanString_escape_append (c : Char) :
    ∃ p, (∀ done cs, scanString done (escape c ++ cs) = scanString (p :: done) cs) ∧
      ∀ ps, joinPieces (p :: ps) = (joinPieces ps).map (c :: ·) := by
  unfold escape
  split
  case h_8 =>
    split
    · rename_i hcontrol
      refine ⟨.unit c.toNat, fun _ _ => scanString_unit (hexUnit?_hexDigit _ hcontrol), fun ps => ?_⟩
      rw [joinPieces_unit (by omega), Char.ofNat_toNat]
    · rename_i hquote hslash _ _ _ _ _ hcontrol
      refine ⟨.char c, fun _ _ => scanString_char hquote ?_, fun _ => rfl⟩
      simp only [Bool.or_eq_true, decide_eq_true_eq, beq_iff_eq]
      exact not_or.2 ⟨hcontrol, hslash⟩
  all_goals exact ⟨.char _, fun _ _ => scanString_escape rfl, fun _ => rfl⟩

theorem scanString_flatMap_escape (cs tail : List Char) (done : List Piece) :
    ∃ ps, scanString done (cs.flatMap escape ++ '"' :: tail) = some (done.reverse ++ ps, tail) ∧
      joinPieces ps = some cs := by
  induction cs generalizing done with
  | nil => exact ⟨[], by rw [List.append_nil]; rfl, rfl⟩
  | cons c cs ih =>
      obtain ⟨p, hscan, hjoin⟩ := scanString_escape_append c
      obtain ⟨ps, hps, hrest⟩ := ih (p :: done)
      refine ⟨p :: ps, ?_, ?_⟩
      · rw [List.flatMap_cons, List.append_assoc, hscan, hps, List.reverse_cons, List.append_assoc]
        rfl
      · rw [hjoin, hrest]
        rfl

theorem readsString_quote (s : String) (tail : List Char) :
    ReadsString (some s) ((quote s).toList ++ tail) tail := by
  obtain ⟨ps, hscan, hjoin⟩ := scanString_flatMap_escape s.toList tail []
  refine ⟨s.toList.flatMap escape ++ '"' :: tail, ?_, ps, hscan, ?_⟩
  · simp [Opens, quote, skipSpace_cons (show isSpace '"' = false from rfl)]
  · rw [hjoin, Option.map_some, String.ofList_toList]

end Strings

mutual

/-- Every number in a value reads back from its digits. -/
def Legible : Json → Prop
  | .num n => ∃ l, scanNumber n.text.toList = some (l, []) ∧ l.number? = some n
  | .arr items => LegibleItems items
  | .obj members => LegibleMembers members
  | .null | .bool _ | .str _ => True

def LegibleItems : List Json → Prop
  | [] => True
  | v :: vs => Legible v ∧ LegibleItems vs

def LegibleMembers : List (String × Json) → Prop
  | [] => True
  | (_, v) :: ms => Legible v ∧ LegibleMembers ms

end

theorem isSpace_of_begins {c : Char} (h : begins c) : isSpace c = false := by
  by_contra hspace
  simp only [isSpace, Bool.not_eq_false, Bool.or_eq_true, beq_iff_eq] at hspace
  rcases hspace with ((rfl | rfl) | rfl) | rfl <;> exact absurd h (by decide)

theorem reads_text {n : Number} (h : Legible (.num n)) {tail : List Char} (htail : Follows tail []) :
    Reads (.doc (.num (some n))) (n.text.toList ++ tail) tail := by
  obtain ⟨l, hscan, hnumber⟩ := h
  obtain ⟨front, hfront, hlocal⟩ := scanNumber_local l _ [] hscan
  rw [List.append_nil] at hfront
  have htext := hlocal tail htail
  dsimp only at htext
  rw [← hfront] at htext
  have hskip : skipSpace (n.text.toList ++ tail) = n.text.toList ++ tail := by
    cases hcs : n.text.toList with
    | nil =>
        rw [hcs] at hscan
        cases hscan
    | cons c cs =>
        rw [hcs] at hscan
        refine skipSpace_cons (isSpace_of_begins ?_) _
        rcases scanNumber_begins hscan with rfl | hdigit
        · rfl
        · simp [begins, hdigit]
  rw [← hnumber]
  exact .num (hskip.symm ▸ htext)

theorem opens_self {c : Char} (hc : isSpace c = false) (rest : List Char) : Opens [c] (c :: rest) rest :=
  skipSpace_cons hc rest

theorem toList_compact_arr (items : List Json) (tail : List Char) :
    (compact (.arr items)).toList ++ tail =
      '[' :: ((",".intercalate (compactItems items)).toList ++ ']' :: tail) := by
  simp [compact]

theorem toList_compact_obj (members : List (String × Json)) (tail : List Char) :
    (compact (.obj members)).toList ++ tail =
      '\x7b' :: ((",".intercalate (compactMembers members)).toList ++ '\x7d' :: tail) := by
  simp [compact]

mutual

theorem reads_compact (v : Json) (h : v.Legible) {tail : List Char} (htail : Follows tail []) :
    Reads (.doc (.ofJson v)) ((compact v).toList ++ tail) tail := by
  match v with
  | .null => exact .null rfl
  | .bool true => exact .true rfl
  | .bool false => exact .false rfl
  | .str s => exact .str (readsString_quote s tail)
  | .num n => exact reads_text h htail
  | .arr items =>
      rw [toList_compact_arr]
      by_cases hitems : items = []
      · subst hitems
        exact .emptyArr (opens_self rfl _) (opens_self rfl tail)
      · exact .arr (opens_self rfl _) (reads_compactItems items hitems h tail)
  | .obj members =>
      rw [toList_compact_obj]
      by_cases hmembers : members = []
      · subst hmembers
        exact .emptyObj (opens_self rfl _) (opens_self rfl tail)
      · exact .obj (opens_self rfl _) (reads_compactMembers members hmembers h tail)

theorem reads_compactItems (items : List Json) (hitems : items ≠ []) (h : LegibleItems items)
    (tail : List Char) :
    Reads (.items (ofItems items)) ((",".intercalate (compactItems items)).toList ++ ']' :: tail)
      tail := by
  match items with
  | [v] =>
      rw [compactItems, compactItems, String.intercalate_singleton]
      exact .lastItem (reads_compact v h.1 (follows_cons rfl _ _)) (opens_self rfl tail)
  | v :: w :: vs =>
      have hrest := reads_compactItems (w :: vs) (List.cons_ne_nil w vs) h.2 tail
      rw [compactItems, compactItems, String.intercalate_cons_cons, ← compactItems]
      simp only [String.toList_append, List.append_assoc]
      exact .item (reads_compact v h.1 (follows_cons rfl _ _)) (opens_self rfl _) hrest

theorem reads_compactMembers (members : List (String × Json)) (hmembers : members ≠ [])
    (h : LegibleMembers members) (tail : List Char) :
    Reads (.members (ofMembers members))
      ((",".intercalate (compactMembers members)).toList ++ '\x7d' :: tail) tail := by
  match members with
  | [(key, v)] =>
      rw [compactMembers, compactMembers, String.intercalate_singleton]
      simp only [String.toList_append, List.append_assoc]
      exact .lastMember (readsString_quote key _) (opens_self rfl _)
        (reads_compact v h.1 (follows_cons rfl _ _)) (opens_self rfl tail)
  | (key, v) :: m :: ms =>
      have hrest := reads_compactMembers (m :: ms) (List.cons_ne_nil m ms) h.2 tail
      rw [compactMembers, compactMembers, String.intercalate_cons_cons, ← compactMembers]
      simp only [String.toList_append, List.append_assoc]
      exact .member (readsString_quote key _) (opens_self rfl _)
        (reads_compact v h.1 (follows_cons rfl _ _)) (opens_self rfl _) hrest

end

mutual

/-- How many containers lie inside one another. -/
def depth : Json → Nat
  | .arr items => depthItems items + 1
  | .obj members => depthMembers members + 1
  | .null | .bool _ | .num _ | .str _ => 0

def depthItems : List Json → Nat
  | [] => 0
  | v :: vs => max (depth v) (depthItems vs)

def depthMembers : List (String × Json) → Nat
  | [] => 0
  | (_, v) :: ms => max (depth v) (depthMembers ms)

end

mutual

/-- A value with the members of every object put in order, the last one of a key standing. -/
def merged : Json → Json
  | .arr items => .arr (mergedItems items)
  | .obj members => .obj (mergedMembers [] members)
  | .null => .null
  | .bool b => .bool b
  | .num n => .num n
  | .str s => .str s

def mergedItems : List Json → List Json
  | [] => []
  | v :: vs => merged v :: mergedItems vs

def mergedMembers (done : Fields) : List (String × Json) → Fields
  | [] => done
  | (key, v) :: ms => mergedMembers (done.insert key (merged v)) ms

end

theorem enter_of_lt {n room : Nat} (h : n + 1 < room) :
    Decoder.enter room = .ok (room - 1) ∧ n < room - 1 :=
  ⟨if_neg (by omega), by omega⟩

mutual

theorem value_ofJson (v : Json) {room : Nat} (h : v.depth < room) :
    Decoder.value room (.ofJson v) = .ok v.merged := by
  match v with
  | .null | .bool _ | .num _ | .str _ => rfl
  | .arr items =>
      obtain ⟨henter, hinside⟩ := enter_of_lt h
      rw [ofJson, Decoder.value, henter]
      change (Decoder.values (room - 1) (ofItems items) >>= _) = _
      rw [values_ofItems items hinside]
      rfl
  | .obj members =>
      obtain ⟨henter, hinside⟩ := enter_of_lt h
      rw [ofJson, Decoder.value, henter]
      change (Decoder.members (room - 1) [] (ofMembers members) >>= _) = _
      rw [members_ofMembers members hinside]
      rfl

theorem values_ofItems (items : List Json) {room : Nat} (h : depthItems items < room) :
    Decoder.values room (ofItems items) = .ok (mergedItems items) := by
  match items with
  | [] => rfl
  | v :: vs =>
      rw [ofItems, Decoder.values, value_ofJson v (lt_of_le_of_lt (Nat.le_max_left ..) h)]
      change (Decoder.values room (ofItems vs) >>= _) = _
      rw [values_ofItems vs (lt_of_le_of_lt (Nat.le_max_right ..) h)]
      rfl

theorem members_ofMembers (members : List (String × Json)) {room : Nat} {done : Fields}
    (h : depthMembers members < room) :
    Decoder.members room done (ofMembers members) = .ok (mergedMembers done members) := by
  match members with
  | [] => rfl
  | (key, v) :: ms =>
      rw [ofMembers, Decoder.members, value_ofJson v (lt_of_le_of_lt (Nat.le_max_left ..) h)]
      exact members_ofMembers ms (lt_of_le_of_lt (Nat.le_max_right ..) h)

end

theorem parse?_compact {v : Json} (h : v.Legible) (hdepth : v.depth < Decoder.fullRoom) :
    parse? (compact v) = some v.merged := by
  have hreads := reads_compact v h (follows_nil [])
  rw [List.append_nil] at hreads
  exact parse?_eq_some.2 ⟨_, [], hreads, by simp, value_ofJson v hdepth⟩

section Members

theorem Fields.get?_cons (key other : String) (v : Json) (fields : Fields) :
    Fields.get? ((key, v) :: fields) other =
      if other = key then some v else Fields.get? fields other := by
  rw [get?, List.lookup_cons]
  by_cases hkey : other = key
  · rw [if_pos hkey, beq_iff_eq.2 hkey]
  · rw [if_neg hkey, beq_eq_false_iff_ne.2 hkey]
    rfl

theorem Fields.get?_insert (fields : Fields) (key other : String) (v : Json) :
    Fields.get? (fields.insert key v) other =
      if other = key then some v else Fields.get? fields other := by
  induction fields with
  | nil => exact get?_cons ..
  | cons m rest ih =>
      obtain ⟨k, w⟩ := m
      unfold insert
      split
      · rw [get?_cons]
      split
      · rename_i hkey
        subst hkey
        rw [get?_cons, get?_cons]
        split <;> rfl
      · rename_i hkey
        rw [get?_cons, get?_cons, ih]
        split
        · rename_i hother
          rw [hother, if_neg (Ne.symm hkey)]
        · rfl

theorem get?_mergedMembers {members : List (String × Json)} (h : (members.map Prod.fst).Nodup)
    (done : Fields) (key : String) :
    Fields.get? (mergedMembers done members) key =
      ((Fields.get? members key).map merged).or (Fields.get? done key) := by
  induction members generalizing done with
  | nil => rfl
  | cons m ms ih =>
      obtain ⟨k, v⟩ := m
      obtain ⟨hk, hms⟩ := List.nodup_cons.1 h
      rw [mergedMembers, ih hms, Fields.get?_insert, Fields.get?_cons]
      split
      · rename_i hkey
        subst hkey
        have hnone : Fields.get? ms key = none := by
          refine List.lookup_eq_none_iff.2 fun m hm => bne_iff_ne.2 fun heq => hk ?_
          exact List.mem_map.2 ⟨m, hm, heq.symm⟩
        rw [hnone]
        rfl
      · rfl

end Members

end Advisor.Json

import Advisor.Proofs.Json.Records

/-!
A value that is laid out over lines reads back like one that is written on a single line.
-/

namespace Advisor.Json

open Document

section Spaces

variable {front cs rest : List Char}

theorem Document.Reads.after {p : Part} (h : Reads p cs rest) (hfront : ∀ c ∈ front, isSpace c) :
    Reads p (front ++ cs) rest :=
  h.congr (skipSpace_append hfront cs)

theorem isSpace_feed : ∀ c ∈ ['\n'], isSpace c := by
  simp [isSpace]

theorem isSpace_blank : ∀ c ∈ [' '], isSpace c := by
  simp [isSpace]

theorem isSpace_deeper {margin : String} (h : ∀ c ∈ margin.toList, isSpace c) :
    ∀ c ∈ (margin ++ "  ").toList, isSpace c := by
  intro c hc
  rw [String.toList_append, List.mem_append] at hc
  rcases hc with hc | hc
  · exact h c hc
  · obtain rfl : c = ' ' := by simpa using hc
    rfl

theorem opens_newline (hfront : ∀ c ∈ front, isSpace c) {c : Char} (hc : isSpace c = false)
    (tail : List Char) : Opens [c] ('\n' :: (front ++ c :: tail)) tail :=
  (opens_self hc tail).congr (skipSpace_append (List.forall_mem_cons.2 ⟨rfl, hfront⟩) (c :: tail))

end Spaces

def stacked (indent : String) (parts : List String) : List Char :=
  (",\n".intercalate (parts.map (indent ++ ·))).toList

theorem stacked_singleton (indent part : String) :
    stacked indent [part] = indent.toList ++ part.toList := by
  rw [stacked, List.map_cons, List.map_nil, String.intercalate_singleton, String.toList_append]

theorem stacked_cons_cons (indent part next : String) (parts : List String) :
    stacked indent (part :: next :: parts) =
      indent.toList ++ (part.toList ++ ',' :: '\n' :: stacked indent (next :: parts)) := by
  simp [stacked, String.intercalate_cons_cons]

theorem toList_block_nil (opening closing margin : String) :
    (block opening closing margin []).toList = opening.toList ++ closing.toList :=
  String.toList_append

theorem toList_block {parts : List String} (h : parts ≠ []) (opening closing margin : String)
    (tail : List Char) :
    (block opening closing margin parts).toList ++ tail =
      opening.toList ++ '\n' :: (stacked (margin ++ "  ") parts ++
        ('\n' :: (margin.toList ++ (closing.toList ++ tail)))) := by
  rw [block, if_neg (by simpa using h)]
  simp [stacked]

mutual

theorem reads_prettyAt (v : Json) (h : v.Legible) {margin : String} {tail : List Char}
    (hmargin : ∀ c ∈ margin.toList, isSpace c) (htail : Follows tail []) :
    Reads (.doc (.ofJson v)) ((prettyAt margin v).toList ++ tail) tail := by
  match v with
  | .null =>
      rw [prettyAt]
      exact .null rfl
  | .bool true =>
      rw [prettyAt]
      exact .true rfl
  | .bool false =>
      rw [prettyAt]
      exact .false rfl
  | .str s =>
      rw [prettyAt]
      exact .str (readsString_quote s tail)
  | .num n =>
      rw [prettyAt]
      exact reads_text h htail
  | .arr [] =>
      rw [prettyAt, prettyItems, toList_block_nil]
      exact .emptyArr (opens_self rfl _) (opens_self rfl tail)
  | .arr (v :: vs) =>
      have hitems := reads_prettyItems (v :: vs) (List.cons_ne_nil v vs) h (isSpace_deeper hmargin)
        (follows_cons rfl _ _) (opens_newline hmargin rfl tail)
      rw [prettyAt, toList_block (by simp [prettyItems])]
      exact .arr (opens_self rfl _) (hitems.after isSpace_feed)
  | .obj [] =>
      rw [prettyAt, prettyMembers, toList_block_nil]
      exact .emptyObj (opens_self rfl _) (opens_self rfl tail)
  | .obj (m :: ms) =>
      have hmembers := reads_prettyMembers (m :: ms) (List.cons_ne_nil m ms) h
        (isSpace_deeper hmargin) (follows_cons rfl _ _) (opens_newline hmargin rfl tail)
      rw [prettyAt, toList_block (by obtain ⟨k, v⟩ := m; simp [prettyMembers])]
      exact .obj (opens_self rfl _) (hmembers.after isSpace_feed)

theorem reads_prettyItems (items : List Json) (hitems : items ≠ []) (h : LegibleItems items)
    {indent : String} {tail rest : List Char} (hindent : ∀ c ∈ indent.toList, isSpace c)
    (htail : Follows tail []) (hend : Opens [']'] tail rest) :
    Reads (.items (ofItems items)) (stacked indent (prettyItems indent items) ++ tail) rest := by
  match items with
  | [v] =>
      rw [prettyItems, prettyItems, stacked_singleton, List.append_assoc]
      exact .lastItem ((reads_prettyAt v h.1 hindent htail).after hindent) hend
  | v :: w :: vs =>
      have hcomma (cs : List Char) : Follows (',' :: cs) [] := follows_cons rfl cs []
      have hrest := reads_prettyItems (w :: vs) (List.cons_ne_nil w vs) h.2 hindent htail hend
      rw [prettyItems, prettyItems, stacked_cons_cons, ← prettyItems]
      simp only [List.append_assoc, List.cons_append]
      exact .item ((reads_prettyAt v h.1 hindent (hcomma _)).after hindent)
        (opens_self rfl _) (hrest.after isSpace_feed)

theorem reads_prettyMembers (members : List (String × Json)) (hmembers : members ≠ [])
    (h : LegibleMembers members) {indent : String} {tail rest : List Char}
    (hindent : ∀ c ∈ indent.toList, isSpace c) (htail : Follows tail [])
    (hend : Opens ['\x7d'] tail rest) :
    Reads (.members (ofMembers members)) (stacked indent (prettyMembers indent members) ++ tail)
      rest := by
  match members with
  | [(key, v)] =>
      rw [prettyMembers, prettyMembers, stacked_singleton]
      simp only [String.toList_append, List.append_assoc]
      exact .lastMember ((readsString_quote key _).congr (skipSpace_append hindent _)) (opens_self rfl _)
        ((reads_prettyAt v h.1 hindent htail).after isSpace_blank) hend
  | (key, v) :: (next, w) :: ms =>
      have hcomma (cs : List Char) : Follows (',' :: cs) [] := follows_cons rfl cs []
      have hrest := reads_prettyMembers ((next, w) :: ms) (List.cons_ne_nil _ ms) h.2 hindent htail
        hend
      rw [prettyMembers, prettyMembers, stacked_cons_cons, ← prettyMembers]
      simp only [String.toList_append, List.append_assoc, List.cons_append]
      exact .member ((readsString_quote key _).congr (skipSpace_append hindent _)) (opens_self rfl _)
        ((reads_prettyAt v h.1 hindent (hcomma _)).after isSpace_blank)
        (opens_self rfl _) (hrest.after isSpace_feed)

end

theorem read_pretty {v : Json} (h : v.Legible) :
    Document.read v.pretty.toList = (.ofJson v, some []) := by
  have hmargin : ∀ c ∈ ("" : String).toList, isSpace c := by simp
  have hreads := reads_prettyAt v h hmargin (follows_nil [])
  rw [List.append_nil] at hreads
  exact read_eq_some.2 hreads

theorem writes_pretty {v : Json} (h : v.Legible) : Writes v.pretty v :=
  ⟨[], read_eq_some.1 (read_pretty h), by simp⟩

end Advisor.Json

import Advisor.Knowledge.Markdown
import Advisor.Proofs.Text.Rows
import Mathlib.Data.List.Forall2

/-!
A page in chapters. Its lines are cut before every heading line, and each stretch of them that says something
is a chapter, with all that it says.
-/

namespace Advisor

namespace Knowledge

/-- A heading line: the first character in it that is no white space is a mark. -/
def Marked (line : String) : Prop :=
  ∃ space rest, line.toList = space ++ '#' :: rest ∧ ∀ c ∈ space, Text.isBlank c

/-- What a heading line says, without the marks and white space before it and the white space after it. -/
structure Titles (line title : String) : Prop where
  around : ∃ lead trail, line.toList = lead ++ title.toList ++ trail ∧
    (∀ c ∈ lead, Text.isBlank c ∨ c = '#') ∧ ∀ c ∈ trail, Text.isBlank c
  starts : ∀ c ∈ title.toList.head?, ¬ Text.isBlank c ∧ c ≠ '#'
  ends : ∀ c ∈ title.toList.getLast?, ¬ Text.isBlank c

/-- What is left of a heading line with other white space than spaces before one of its marks: this mark and
all that comes after it. -/
structure KeepsMark (line title : String) : Prop where
  around : ∃ marks c space trail, line.toList = marks ++ c :: space ++ title.toList ++ trail ∧
    (∀ c ∈ marks, c = '#' ∨ c = ' ') ∧ (Text.isBlank c ∧ c ≠ ' ') ∧ (∀ c ∈ space, Text.isBlank c) ∧
    ∀ c ∈ trail, Text.isBlank c
  starts : title.toList.head? = some '#'
  ends : ∀ c ∈ title.toList.getLast?, ¬ Text.isBlank c

/-- The heading that a heading line gives, and the one of what comes before all heading lines. -/
inductive Heads : Option String → String → Prop
  | none : Heads none ""
  | title (h : Titles line title) (hbare : ∀ kept, ¬KeepsMark line kept) : Heads (some line) title
  | marked (h : KeepsMark line title) : Heads (some line) title

/-- The lines after a heading line, or the first lines of a page, up to the next heading line. -/
structure Stretch where
  opening : Option String
  lines : List String

/-- Lines cut before every heading line, the first of them coming after `opening`. -/
inductive Cut : (opening : Option String) → (lines : List String) → List Stretch → Prop
  | last (hbody : ∀ line ∈ body, ¬Marked line) : Cut opening body [⟨opening, body⟩]
  | next (hbody : ∀ line ∈ body, ¬Marked line) (hline : Marked line)
      (hrest : Cut (some line) rest stretches) :
      Cut opening (body ++ line :: rest) (⟨opening, body⟩ :: stretches)

def Stretch.Written (s : Stretch) : Prop := ∃ line ∈ s.lines, Text.Written line

instance (s : Stretch) : Decidable s.Written :=
  inferInstanceAs (Decidable (∃ line ∈ s.lines, Text.Written line))

/-- A chapter says what the lines of a stretch say, and nothing else. -/
structure Stretch.Tells (s : Stretch) (c : Chapter) : Prop where
  heading : Heads s.opening c.heading
  body : c.body = Text.stack s.lines
  rows : Text.rows c.body.toList = (s.lines.filter (Text.Written ·)).map Text.trim
  filled : Text.Written c.body

section Headings

variable {line : String}

theorem isHeading_iff : Chapter.isHeading line = true ↔ Marked line := by
  rw [Chapter.isHeading, beq_iff_eq]
  constructor
  · intro h
    obtain ⟨rest, hrest⟩ := List.head?_eq_some_iff.1 h
    refine ⟨line.toList.takeWhile Text.isBlank, rest, ?_, List.all_eq_true.1 List.all_takeWhile⟩
    rw [← hrest, List.takeWhile_append_dropWhile]
  · rintro ⟨space, rest, hline, hspace⟩
    rw [hline, List.dropWhile_append_of_pos hspace, List.dropWhile_cons_of_neg (by decide)]
    rfl

instance (line : String) : Decidable (Marked line) :=
  decidable_of_iff (Chapter.isHeading line = true) isHeading_iff

theorem exists_marks (line : String) :
    ∃ marks rest, line.toList = marks ++ rest ∧ (∀ c ∈ marks, c = '#' ∨ c = ' ') ∧
      (∀ c ∈ rest.head?, c ≠ '#' ∧ c ≠ ' ') ∧
      (Chapter.headingText line).toList = Text.strip Text.isBlank rest := by
  refine ⟨line.toList.takeWhile fun c => c == '#' || c == ' ',
    line.toList.dropWhile fun c => c == '#' || c == ' ', List.takeWhile_append_dropWhile.symm, ?_, ?_, ?_⟩
  · intro c hc
    simpa using List.all_eq_true.1 List.all_takeWhile c hc
  · intro c hc
    have hout := List.head?_dropWhile_not (fun c => c == '#' || c == ' ') line.toList
    rw [hc] at hout
    simpa using hout
  · rw [Chapter.headingText, Text.toList_trim, String.toList_ofList]

theorem KeepsMark.head?_headingText {kept : String} (h : KeepsMark line kept) :
    (Chapter.headingText line).toList.head? = some '#' := by
  obtain ⟨marks, c, space, trail, hline, hmarks, ⟨hc, hother⟩, hspace, -⟩ := h.around
  obtain ⟨more, hmore⟩ := List.head?_eq_some_iff.1 h.starts
  have hstop : ¬ (c == '#' || c == ' ') := by
    have hmark : c ≠ '#' := by
      rintro rfl
      cases hc
    simp [hmark, hother]
  have hdrop : line.toList.dropWhile (fun c => c == '#' || c == ' ') =
      (c :: space) ++ '#' :: (more ++ trail) := by
    rw [hline, List.append_assoc, List.append_assoc, hmore,
      List.dropWhile_append_of_pos fun b hb => by simpa using hmarks b hb, List.cons_append,
      List.dropWhile_cons, if_neg hstop]
    simp
  rw [Chapter.headingText, Text.toList_trim, String.toList_ofList, hdrop,
    Text.strip_gap_append (List.forall_mem_cons.2 ⟨hc, hspace⟩)]
  exact Text.head?_strip_cons rfl _

theorem heads_headingText (line : String) : Heads (some line) (Chapter.headingText line) := by
  obtain ⟨marks, rest, hline, hmarks, hstop, htitle⟩ := exists_marks line
  obtain ⟨before, trail, hrest, hbefore, htrail⟩ := Text.exists_stripped Text.isBlank rest
  have hends := Text.not_of_mem_getLast?_strip Text.isBlank rest
  rw [← htitle] at hends hrest
  have hwhole : line.toList = marks ++ before ++ (Chapter.headingText line).toList ++ trail := by
    rw [hline, List.append_assoc, List.append_assoc, ← List.append_assoc before, ← hrest]
  by_cases hkept : (Chapter.headingText line).toList.head? = some '#'
  · -- the search for marks has stopped before this one, at white space that is no plain space
    obtain ⟨more, hmore⟩ := List.head?_eq_some_iff.1 hkept
    cases before with
    | nil =>
        rw [hrest, hmore] at hstop
        exact absurd rfl (hstop '#' rfl).1
    | cons c space =>
        obtain ⟨hc, hspace⟩ := List.forall_mem_cons.1 hbefore
        have hother : c ≠ ' ' := by
          rw [hrest] at hstop
          exact (hstop c rfl).2
        exact .marked ⟨⟨marks, c, space, trail, hwhole, hmarks, ⟨hc, hother⟩, hspace, htrail⟩, hkept, hends⟩
  · have hlead : ∀ c ∈ marks ++ before, Text.isBlank c ∨ c = '#' := by
      intro c hc
      obtain hc | hc := List.mem_append.1 hc
      · exact (hmarks c hc).elim .inr fun hspace => .inl (hspace ▸ rfl)
      · exact .inl (hbefore c hc)
    have hstarts : ∀ c ∈ (Chapter.headingText line).toList.head?, ¬ Text.isBlank c ∧ c ≠ '#' := by
      refine fun c hc => ⟨Text.not_of_mem_head?_strip Text.isBlank rest c (htitle ▸ hc), ?_⟩
      rintro rfl
      exact hkept hc
    exact .title ⟨⟨marks ++ before, trail, hwhole, hlead, htrail⟩, hstarts, hends⟩
      fun kept h => hkept h.head?_headingText

end Headings

section Chapters

variable {opening : Option String} {heading : String} {body lines : List String}
  {stretches : List Stretch}

theorem Stretch.tells_close (hheads : Heads opening heading)
    (hlines : ∀ line ∈ body, '\n' ∉ line.toList) :
    List.Forall₂ Stretch.Tells ([⟨opening, body⟩].filter fun s : Stretch => s.Written)
      (Chapter.close heading body) := by
  have hflat : (String.join (body.map (· ++ "\n"))).toList =
      body.flatMap fun line => line.toList ++ ['\n'] := by
    rw [String.toList_join, List.flatMap_map]
    simp
  have hrows : Text.rows (Text.trim (String.join (body.map (· ++ "\n")))).toList =
      (body.filter (Text.Written ·)).map Text.trim := by
    rw [Text.toList_trim, Text.rows_strip, hflat, Text.rows_lines hlines]
  have hstack : Text.trim (String.join (body.map (· ++ "\n"))) = Text.stack body := by
    rw [← Text.trim_flatMap, ← hflat, String.ofList_toList]
  rw [hstack] at hrows
  unfold Chapter.close
  simp only [hstack]
  by_cases hwritten : Stretch.Written ⟨opening, body⟩
  · have hfilled : Text.stack body ≠ "" := Text.stack_ne_empty_iff.2 hwritten
    rw [List.filter_cons_of_pos (by simpa using hwritten), List.filter_nil, if_neg (by simpa using hfilled)]
    exact .cons ⟨hheads, rfl, hrows, Text.written_stack.2 hwritten⟩ .nil
  · have hempty : Text.stack body = "" := not_not.1 (mt Text.stack_ne_empty_iff.1 hwritten)
    rw [List.filter_cons_of_neg (by simpa using hwritten), List.filter_nil, if_pos (by simpa using hempty)]
    exact .nil

theorem exists_cut (body : List String) (hheads : Heads opening heading)
    (hlines : ∀ line ∈ body.reverse ++ lines, '\n' ∉ line.toList) (hbody : ∀ line ∈ body, ¬Marked line) :
    ∃ stretches, Cut opening (body.reverse ++ lines) stretches ∧
      List.Forall₂ Stretch.Tells (stretches.filter fun s : Stretch => s.Written)
        (Chapter.split heading body lines) := by
  -- on the lines still to come; those taken since the last heading line are held in reverse
  induction lines generalizing opening heading body with
  | nil =>
      rw [List.append_nil] at hlines ⊢
      exact ⟨_, .last fun line hline => hbody line (List.mem_reverse.1 hline), Stretch.tells_close hheads hlines⟩
  | cons line rest ih =>
      obtain ⟨hbefore, hfrom⟩ := List.forall_mem_append.1 hlines
      rw [Chapter.split]
      split
      · rename_i hmark
        obtain ⟨stretches, hcut, htells⟩ := ih [] (heads_headingText line)
          (List.forall_mem_cons.1 hfrom).2 (by simp)
        refine ⟨_, .next (fun l hl => hbody l (List.mem_reverse.1 hl)) (isHeading_iff.1 hmark) hcut, ?_⟩
        rw [← List.singleton_append, List.filter_append]
        exact List.rel_append (Stretch.tells_close hheads hbefore) htells
      · rename_i hplain
        have hmore : (line :: body).reverse ++ rest = body.reverse ++ line :: rest := by simp
        obtain ⟨stretches, hcut, htells⟩ := ih (line :: body) hheads (hmore ▸ hlines)
          (List.forall_mem_cons.2 ⟨fun h => hplain (isHeading_iff.2 h), hbody⟩)
        exact ⟨stretches, hmore ▸ hcut, htells⟩

theorem filter_unmarked (h : ∀ line ∈ body, ¬Marked line) :
    (body.filter fun line => ¬Marked line ∧ Text.Written line) = body.filter (Text.Written ·) :=
  List.filter_congr fun line hline => by simp [h line hline]

theorem Cut.filter_eq (h : Cut opening lines stretches) :
    (lines.filter fun line => ¬Marked line ∧ Text.Written line) =
      stretches.flatMap fun s => s.lines.filter (Text.Written ·) := by
  induction h with
  | last hbody => rw [filter_unmarked hbody, List.flatMap_singleton]
  | next hbody hline hrest ih =>
      rw [List.filter_append, filter_unmarked hbody, List.filter_cons_of_neg (by simp [hline]), ih,
        List.flatMap_cons]

theorem rows_of_tells {chapters : List Chapter}
    (h : List.Forall₂ Stretch.Tells (stretches.filter fun s : Stretch => s.Written) chapters) :
    chapters.flatMap (fun c => Text.rows c.body.toList) =
      (stretches.flatMap fun s => s.lines.filter (Text.Written ·)).map Text.trim := by
  induction stretches generalizing chapters with
  | nil =>
      cases h
      rfl
  | cons s rest ih =>
      by_cases hwritten : s.Written
      · rw [List.filter_cons_of_pos (by simpa using hwritten)] at h
        cases h with
        | cons htells hrest =>
            rw [List.flatMap_cons, List.flatMap_cons, List.map_append, htells.rows, ih hrest]
      · have hnone : s.lines.filter (Text.Written ·) = [] :=
          List.filter_eq_nil_iff.2 fun line hline => by simpa using fun h => hwritten ⟨line, hline, h⟩
        rw [List.filter_cons_of_neg (by simpa using hwritten)] at h
        rw [List.flatMap_cons, hnone, List.nil_append, ih h]

/-- A page is cut before every heading line, and the chapters are what its stretches say, those that say
something, in their order. Each stands under the title of the heading line before it; only if other white
space than spaces comes before a mark of that line, this mark is still in it. -/
theorem chapters_tell_page (markdown : String) :
    ∃ stretches, Cut none (Text.lines markdown) stretches ∧
      List.Forall₂ Stretch.Tells (stretches.filter fun s : Stretch => s.Written)
        (Chapter.ofMarkdown markdown) ∧
      (Chapter.ofMarkdown markdown).flatMap (fun c => Text.rows c.body.toList) =
        ((Text.lines markdown).filter fun line => ¬Marked line ∧ Text.Written line).map Text.trim := by
  obtain ⟨stretches, hcut, htells⟩ := exists_cut [] .none (Text.break_not_mem_lines markdown) (by simp)
  rw [List.reverse_nil, List.nil_append] at hcut
  exact ⟨stretches, hcut, htells, hcut.filter_eq ▸ rows_of_tells htells⟩

/-- A tab before the mark: it is a heading line all the same, but its mark stays. -/
theorem tab_keeps_mark :
    Chapter.ofMarkdown "\t# Profit\nprofit filters" = [⟨"# Profit", "profit filters"⟩] ∧
      Marked "\t# Profit" ∧ ¬Titles "\t# Profit" "# Profit" := by
  refine ⟨by decide +kernel, ⟨['\t'], " Profit".toList, by decide, List.forall_mem_singleton.2 rfl⟩, fun h => ?_⟩
  exact (h.starts '#' (by decide)).2 rfl

end Chapters

end Knowledge

end Advisor

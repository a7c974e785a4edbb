import Advisor.Proofs.Split
import Advisor.Proofs.Text.Encoding
import Advisor.Stream.Lines
import Mathlib.Data.List.Forall2

namespace Advisor.Stream

/-! How bytes come in chunks does not matter for their lines. -/

/-- Bytes as the lines that a line feed ends, and what comes after the last line feed. -/
structure Divided (bytes : List UInt8) (ended : List (List UInt8)) (rest : List UInt8) : Prop where
  whole : bytes = (ended.map (· ++ [lineFeed])).flatten ++ rest
  ended : ∀ line ∈ ended, lineFeed ∉ line
  rest : lineFeed ∉ rest

variable {bytes more line waiting chunk rest rest' : List UInt8}
  {ended ended' chunks : List (List UInt8)}

theorem divided_open (h : lineFeed ∉ bytes) : Divided bytes [] bytes :=
  ⟨rfl, by simp, h⟩

theorem Divided.cons (h : Divided bytes ended rest) (hline : lineFeed ∉ line) :
    Divided (line ++ lineFeed :: bytes) (line :: ended) rest where
  whole := by simp [h.whole]
  ended := by simpa using ⟨hline, h.ended⟩
  rest := h.rest

theorem Divided.append (h : Divided bytes ended rest) (h' : Divided (rest ++ more) ended' rest') :
    Divided (bytes ++ more) (ended ++ ended') rest' where
  whole := by simp [h.whole, h'.whole]
  ended line hline := (List.mem_append.1 hline).elim (h.ended line) (h'.ended line)
  rest := h'.rest

theorem Divided.splitOnP (h : Divided bytes ended rest) :
    bytes.splitOnP (· == lineFeed) = ended ++ [rest] := by
  rw [h.whole, ← List.flatMap_def, splitOnP_ended h.ended h.rest]

theorem Divided.unique (h : Divided bytes ended rest) (h' : Divided bytes ended' rest') :
    ended = ended' ∧ rest = rest' := by
  have hsame : ended ++ [rest] = ended' ++ [rest'] := h.splitOnP.symm.trans h'.splitOnP
  obtain ⟨hended, hrest⟩ := List.append_inj' hsame rfl
  exact ⟨hended, List.singleton_inj.1 hrest⟩

theorem exists_divided (bytes : List UInt8) : ∃ ended rest, Divided bytes ended rest := by
  induction bytes with
  | nil => exact ⟨[], [], divided_open (by simp)⟩
  | cons b bytes ih =>
      obtain ⟨ended, rest, h⟩ := ih
      by_cases hb : b = lineFeed
      · subst hb
        exact ⟨[] :: ended, rest, h.cons (List.not_mem_nil : lineFeed ∉ [])⟩
      · cases ended with
        | nil =>
            refine ⟨[], b :: rest, by simp [h.whole], by simp, ?_⟩
            simpa [Ne.symm hb] using h.rest
        | cons line ended =>
            refine ⟨(b :: line) :: ended, rest, by simp [h.whole], ?_, h.rest⟩
            have hline := h.ended line List.mem_cons_self
            simpa [Ne.symm hb, hline] using fun l hl => h.ended l (List.mem_cons_of_mem _ hl)

theorem Divided.pushChunk (h : Divided (waiting ++ chunk) ended rest) :
    pushChunk waiting chunk = (ended.map decodeLine, rest) := by
  rw [Stream.pushChunk, h.splitOnP]
  simp

/-- The lines of all chunks together are those of the bytes they make up, and what waits in the end is
the rest. -/
theorem Divided.pushChunks (h : Divided (waiting ++ chunks.flatten) ended rest)
    (hwaiting : lineFeed ∉ waiting) :
    (pushChunks waiting chunks).1.flatten = ended.map decodeLine ∧
      (pushChunks waiting chunks).2 = rest := by
  induction chunks generalizing waiting ended with
  | nil =>
      rw [List.flatten_nil, List.append_nil] at h
      obtain ⟨rfl, rfl⟩ := (divided_open hwaiting).unique h
      exact ⟨rfl, rfl⟩
  | cons chunk chunks ih =>
      obtain ⟨first, between, hfirst⟩ := exists_divided (waiting ++ chunk)
      obtain ⟨others, last, hothers⟩ := exists_divided (between ++ chunks.flatten)
      have hwhole := hfirst.append hothers
      rw [List.append_assoc, ← List.flatten_cons] at hwhole
      obtain ⟨rfl, rfl⟩ := hwhole.unique h
      obtain ⟨hlines, hlast⟩ := ih hothers hfirst.rest
      rw [Stream.pushChunks, hfirst.pushChunk]
      refine ⟨?_, hlast⟩
      rw [List.flatten_cons, hlines, List.map_append]

namespace LineReader

theorem all_of_none {r : LineReader} (h : r.next? = none) : r.all = [] := by
  rw [all]
  split
  · rfl
  · rename_i he
    rw [h] at he
    cases he

theorem all_of_some {r r' : LineReader} {item : Except Failure String}
    (h : r.next? = some (item, r')) : r.all = item :: r'.all := by
  rw [all]
  split
  · rename_i he
    rw [h] at he
    cases he
  · rename_i he
    rw [h] at he
    cases he
    rfl

theorem all_ready (source : Source) (waiting : List UInt8) (ready : List String) (finished : Bool) :
    all ⟨source, waiting, ready, finished⟩ =
      ready.map .ok ++ all ⟨source, waiting, [], finished⟩ := by
  induction ready with
  | nil => rfl
  | cons line ready ih =>
      have hnext : next? ⟨source, waiting, line :: ready, finished⟩ =
          some (.ok line, ⟨source, waiting, ready, finished⟩) := rfl
      rw [all_of_some hnext, ih]
      rfl

theorem all_finished (source : Source) (waiting : List UInt8) :
    all ⟨source, waiting, [], true⟩ = [] :=
  all_of_none rfl

theorem all_end (waiting : List UInt8) :
    all ⟨[], waiting, [], false⟩ = (lastLine? waiting).toList.map .ok := by
  cases h : lastLine? waiting with
  | none => exact all_of_none (by simp [next?, fetch, h])
  | some line =>
      have hnext : next? ⟨[], waiting, [], false⟩ = some (.ok line, ⟨[], [], [], true⟩) := by
        simp [next?, fetch, h]
      rw [all_of_some hnext, all_finished]
      rfl

theorem all_error (why : String) (source : Source) (waiting : List UInt8) :
    all ⟨.error why :: source, waiting, [], false⟩ =
      [.error (.provider ("stream interrupted: " ++ why))] := by
  rw [all_of_some rfl, all_finished]

theorem all_chunk (chunk : List UInt8) (source : Source) (waiting : List UInt8) :
    all ⟨.ok chunk :: source, waiting, [], false⟩ =
      (pushChunk waiting chunk).1.map .ok ++
        all ⟨source, (pushChunk waiting chunk).2, [], false⟩ := by
  obtain ⟨lines, waiting', hpush⟩ : ∃ lines waiting', pushChunk waiting chunk = (lines, waiting') :=
    ⟨_, _, rfl⟩
  rw [hpush]
  cases lines with
  | nil =>
      have hnext : next? ⟨.ok chunk :: source, waiting, [], false⟩ =
          next? ⟨source, waiting', [], false⟩ := by
        simp only [next?, fetch, hpush]
      cases h : next? ⟨source, waiting', [], false⟩ with
      | none =>
          rw [all_of_none h, all_of_none (hnext.trans h)]
          rfl
      | some step =>
          rw [all_of_some h, all_of_some (hnext.trans h)]
          rfl
  | cons line ready =>
      have hnext : next? ⟨.ok chunk :: source, waiting, [], false⟩ =
          some (.ok line, ⟨source, waiting', ready, false⟩) := by
        simp only [next?, fetch, hpush]
        rfl
      rw [all_of_some hnext, all_ready]
      rfl

theorem all_chunks (chunks : List (List UInt8)) (source : Source) (waiting : List UInt8) :
    all ⟨chunks.map .ok ++ source, waiting, [], false⟩ =
      (pushChunks waiting chunks).1.flatten.map .ok ++
        all ⟨source, (pushChunks waiting chunks).2, [], false⟩ := by
  induction chunks generalizing waiting with
  | nil => rfl
  | cons chunk chunks ih =>
      rw [List.map_cons, List.cons_append, all_chunk, ih, pushChunks]
      simp

end LineReader

/-- The text of a line, of which a carriage return at its end is no part. -/
inductive LineOf : List UInt8 → String → Prop
  | returned (h : Text.Utf8.Spells front text) : LineOf (front ++ [13]) text
  | plain (hend : whole.getLast? ≠ some 13) (h : Text.Utf8.Spells whole text) : LineOf whole text

theorem lineOf_decodeLine (bytes : List UInt8) : LineOf bytes (decodeLine bytes) := by
  unfold decodeLine
  split
  · rename_i hend
    obtain ⟨before, rfl⟩ := List.getLast?_eq_some_iff.1 hend
    rw [List.dropLast_concat]
    exact .returned (Text.Utf8.spells_decode before)
  · rename_i hend
    exact .plain hend (Text.Utf8.spells_decode bytes)

theorem LineOf.unique (h : LineOf line text) (h' : LineOf line text') : text = text' := by
  cases h with
  | @returned front _ h =>
      generalize he : front ++ [13] = line at h'
      cases h' with
      | returned h' =>
          obtain rfl := List.append_cancel_right he
          exact h.unique h'
      | plain hend => exact absurd (by rw [← he, List.getLast?_concat]) hend
  | plain hend h =>
      cases h' with
      | returned => exact absurd List.getLast?_concat hend
      | plain _ h' => exact h.unique h'

theorem linesOf_decodeLine (lines : List (List UInt8)) :
    List.Forall₂ LineOf lines (lines.map decodeLine) := by
  induction lines with
  | nil => exact .nil
  | cons line lines ih => exact .cons (lineOf_decodeLine line) ih

theorem toList_lastLine? (waiting : List UInt8) :
    (lastLine? waiting).toList = ([waiting].filter (· ≠ [])).map decodeLine := by
  cases waiting <;> rfl

/-- However bytes are cut into chunks, their lines are the same: those that a line feed ends, and the
rest unless it is empty. A reader of the chunks gives these lines and ends; if they break off, it gives
the ended lines and one failure instead of the rest. -/
theorem lines_of_chunks (bytes : List UInt8) :
    Relator.RightUnique LineOf ∧
    ∃ ended rest lines last, Divided bytes ended rest ∧ List.Forall₂ LineOf ended lines ∧
      List.Forall₂ LineOf ([rest].filter (· ≠ [])) last ∧ ∀ chunks, chunks.flatten = bytes →
        (pushChunks [] chunks).1.flatten ++ (lastLine? (pushChunks [] chunks).2).toList =
          lines ++ last ∧
        (LineReader.start (chunks.map .ok)).all = (lines ++ last).map .ok ∧
        ∀ why source, (LineReader.start (chunks.map .ok ++ .error why :: source)).all =
          lines.map .ok ++ [.error (.provider ("stream interrupted: " ++ why))] := by
  obtain ⟨ended, rest, h⟩ := exists_divided bytes
  refine ⟨fun _ _ _ => LineOf.unique, ended, rest, _, _, h, linesOf_decodeLine ended,
    linesOf_decodeLine _, ?_⟩
  rintro chunks rfl
  have hstart : Divided ([] ++ chunks.flatten) ended rest := h
  obtain ⟨hlines, hrest⟩ := hstart.pushChunks List.not_mem_nil
  refine ⟨?_, ?_, fun why source => ?_⟩
  · rw [hlines, hrest, toList_lastLine?]
  · have hall := LineReader.all_chunks chunks [] []
    rw [List.append_nil] at hall
    rw [LineReader.start, hall, LineReader.all_end, hlines, hrest, toList_lastLine?, List.map_append]
  · rw [LineReader.start, LineReader.all_chunks, LineReader.all_error, hlines]

end Advisor.Stream

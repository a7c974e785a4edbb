import Advisor.Proofs.Text.Trimming
import Advisor.Stream.Relay

namespace Advisor

namespace Stream

open Assembler

/-! The reading of a stream as a whole: its lines up to the sentinel, the events that blank lines part,
the chunks that these decode to, and the steps and the reply that come of the chunks. -/

/-- The data of a line stands after its mark, without the white space around it. -/
structure Carries (line text : String) : Prop where
  whole : ∃ before after : List Char,
    line.toList = "data:".toList ++ (before ++ text.toList ++ after) ∧
      (∀ c ∈ before, Text.isBlank c) ∧ ∀ c ∈ after, Text.isBlank c
  first : ∀ c ∈ text.toList.head?, ¬ Text.isBlank c
  last : ∀ c ∈ text.toList.getLast?, ¬ Text.isBlank c

theorem payload?_eq_some_iff : payload? line = some text ↔ Carries line text := by
  rw [payload?, Text.afterPrefix?]
  constructor
  · intro h
    split at h
    · rename_i hmark
      obtain ⟨rest, hrest⟩ := List.isPrefixOf_iff_prefix.1 hmark
      rw [← hrest, List.drop_left] at h
      obtain rfl : Text.trim (.ofList rest) = text := Option.some.inj h
      obtain ⟨before, after, he, hbefore, hafter⟩ := Text.exists_stripped Text.isBlank rest
      have htrim : (Text.trim (.ofList rest)).toList = Text.strip Text.isBlank rest := by
        rw [Text.toList_trim, String.toList_ofList]
      refine ⟨⟨before, after, ?_, hbefore, hafter⟩, ?_, ?_⟩
      · rw [htrim, ← he, hrest]
      · rw [htrim]
        exact Text.not_of_mem_head?_strip _ rest
      · rw [htrim]
        exact Text.not_of_mem_getLast?_strip _ rest
    · cases h
  · rintro ⟨⟨before, after, he, hbefore, hafter⟩, hfirst, hlast⟩
    rw [he, if_pos (List.isPrefixOf_iff_prefix.2 (List.prefix_append ..)), List.drop_left,
      Option.map_some, Text.trim, String.toList_ofList, Text.strip_append_gap hafter,
      Text.strip_gap_append hbefore, Text.strip_eq_self hfirst hlast, String.ofList_toList]

namespace Batch

def body (lines : List String) : List String :=
  lines.takeWhile fun line => payload? line != some "[DONE]"

def isBlank (line : String) : Bool :=
  line.toList.all Text.isBlank

theorem isEmpty_trim (line : String) : (Text.trim line).isEmpty = isBlank line := by
  rw [Bool.eq_iff_iff, String.isEmpty_iff, isBlank, List.all_eq_true]
  constructor
  · intro hempty c hc
    by_contra hshown
    exact Text.trim_ne_empty (eq_false_of_ne_true hshown) hc hempty
  · intro hblank
    have hnone : line.toList.dropWhile Text.isBlank = [] := List.dropWhile_eq_nil_iff.2 hblank
    rw [Text.trim, Text.strip, hnone]
    rfl

/-- The data of each event. Blank lines part events; other lines without data count for nothing. -/
def events (lines : List String) : List (List String) :=
  ((lines.splitOnP isBlank).map (·.filterMap payload?)).filter (· ≠ [])

/-- Events whose data is no chunk are passed over. -/
def chunks (lines : List String) : List Chunk :=
  (events (body lines)).filterMap fun data => Chunk.ofText? ("\n".intercalate data)

/-- The chunks before the first error. -/
def sound (cs : List Chunk) : List Chunk :=
  cs.takeWhile (·.error.isNone)

/-- The step that ends the stream: the first error, or that it is done. -/
def ending (cs : List Chunk) : Step :=
  match cs.findSome? (·.error) with
  | some error => .failed (Chunk.errorText error)
  | none => .done

/-- A step for each chunk that has text. The progress is told from all the text so far. -/
def deltas (pace : Nat → Nat) (before : String) : List Chunk → List Step
  | [] => []
  | c :: cs =>
      let answer := before ++ c.text
      (if c.text.isEmpty then [] else [.delta c.text (pace (Text.runeCount answer))]) ++
        deltas pace answer cs

def lastOr (default : α) (values : List α) : α :=
  values.getLast?.getD default

/-- All text in its order, under the model named last, with the first id and the last usage that says
something. -/
def reply (requestedModel : String) (cs : List Chunk) : Reply where
  answer := String.join (cs.map Chunk.text)
  model := lastOr requestedModel (cs.filterMap fun c => Completion.namedModel c.model)
  messageId := ((cs.filterMap (·.id)).find? (!·.isEmpty)).getD ""
  usage := lastOr [] ((cs.filterMap (·.usage)).filter (!·.isEmpty))

end Batch

/-- Takes lines in one after the other, and then their end. -/
def Assembler.readAll (pace : Nat → Nat) (a : Assembler) : List String → Assembler × List Step
  | [] => a.finish pace
  | line :: lines =>
      let (b, steps) := a.push pace line
      let (c, more) := b.readAll pace lines
      (c, steps ++ more)

namespace Batch

/-! The events of lines when some data is pending. -/

def eventsAfter (pending : List String) (lines : List String) : List (List String) :=
  (((lines.splitOnP isBlank).map (·.filterMap payload?)).modifyHead (pending ++ ·)).filter (· ≠ [])

def chunksAfter (pending : List String) (lines : List String) : List Chunk :=
  (eventsAfter pending (body lines)).filterMap fun data => Chunk.ofText? ("\n".intercalate data)

def chunkOf? (data : List String) : Option Chunk :=
  if data.isEmpty then none else Chunk.ofText? ("\n".intercalate data)

theorem chunksAfter_nil (lines : List String) : chunksAfter [] lines = chunks lines := by
  have hid : (([] : List String) ++ ·) = id := rfl
  rw [chunksAfter, chunks, eventsAfter, events, hid, List.modifyHead_id]
  rfl

theorem filterMap_filter (data : List String) :
    ([data].filter (· ≠ [])).filterMap (fun data => Chunk.ofText? ("\n".intercalate data)) =
      (chunkOf? data).toList := by
  cases data with
  | nil => rfl
  | cons d ds =>
      cases h : Chunk.ofText? ("\n".intercalate (d :: ds)) <;> simp [chunkOf?, h]

theorem payload?_of_blank (h : isBlank line) : payload? line = none := by
  by_contra hsome
  obtain ⟨text, hp⟩ := Option.ne_none_iff_exists'.1 hsome
  obtain ⟨before, after, he, _⟩ := (payload?_eq_some_iff.1 hp).whole
  have hmark : 'd' ∈ line.toList := by
    rw [he]
    exact List.mem_append_left _ (by decide)
  have hblank := List.all_eq_true.1 h 'd' hmark
  cases hblank

theorem body_of_ne (lines : List String) (h : payload? line ≠ some "[DONE]") :
    body (line :: lines) = line :: body lines := by
  rw [body, List.takeWhile_cons_of_pos]
  · rfl
  · simpa using h

theorem chunksAfter_done (pending : List String) (h : payload? line = some "[DONE]") :
    chunksAfter pending (line :: lines) = (chunkOf? pending).toList := by
  have hbody : body (line :: lines) = [] := by
    rw [body, List.takeWhile_cons_of_neg]
    simp [h]
  rw [chunksAfter, hbody, ← filterMap_filter]
  simp [eventsAfter]

theorem chunksAfter_end (pending : List String) :
    chunksAfter pending [] = (chunkOf? pending).toList := by
  rw [← filterMap_filter, chunksAfter]
  simp [eventsAfter, body]

theorem chunksAfter_blank (pending : List String) (h : isBlank line) :
    chunksAfter pending (line :: lines) = (chunkOf? pending).toList ++ chunksAfter [] lines := by
  have hbody : body (line :: lines) = line :: body lines := body_of_ne lines (by simp [payload?_of_blank h])
  have hevents : eventsAfter pending (line :: body lines) =
      [pending].filter (· ≠ []) ++ eventsAfter [] (body lines) := by
    have hid : (([] : List String) ++ ·) = id := rfl
    rw [eventsAfter, eventsAfter, hid, List.modifyHead_id, List.splitOnP_cons_eq_if_modifyHead,
      if_pos h]
    cases pending <;> simp
  rw [chunksAfter, hbody, hevents, List.filterMap_append, filterMap_filter]
  rfl

theorem chunksAfter_other (pending : List String) (h : isBlank line = false)
    (hp : payload? line = none) :
    chunksAfter pending (line :: lines) = chunksAfter pending lines := by
  have hbody : body (line :: lines) = line :: body lines := body_of_ne lines (by simp [hp])
  have hevents : eventsAfter pending (line :: body lines) = eventsAfter pending (body lines) := by
    rw [eventsAfter, eventsAfter, List.splitOnP_cons_eq_if_modifyHead, if_neg (by simp [h])]
    cases (body lines).splitOnP isBlank <;> simp [hp]
  rw [chunksAfter, hbody, hevents]
  rfl

theorem chunksAfter_data (pending : List String) (h : isBlank line = false)
    (hp : payload? line = some data) (hdata : data ≠ "[DONE]") :
    chunksAfter pending (line :: lines) = chunksAfter (pending ++ [data]) lines := by
  have hbody : body (line :: lines) = line :: body lines := body_of_ne lines (by simp [hp, hdata])
  have hevents : eventsAfter pending (line :: body lines) =
      eventsAfter (pending ++ [data]) (body lines) := by
    rw [eventsAfter, eventsAfter, List.splitOnP_cons_eq_if_modifyHead, if_neg (by simp [h])]
    cases (body lines).splitOnP isBlank <;> simp [hp]
  rw [chunksAfter, hbody, hevents]
  rfl

/-! What an assembler comes to when the chunks that are still to come are known. -/

/-- All sound chunks are taken in, and then the stream is done. -/
def outcome (pace : Nat → Nat) (a : Assembler) (cs : List Chunk) : Assembler × List Step :=
  ({ (sound cs).foldl absorb { a with pending := [] } with done := true },
    deltas pace a.answer (sound cs) ++ [ending cs])

variable {pace : Nat → Nat} {a : Assembler}

theorem outcome_error {c : Chunk} {error : Json} (h : c.error = some error) (cs : List Chunk) :
    outcome pace a (c :: cs) =
      ({ a with pending := [], done := true }, [.failed (Chunk.errorText error)]) := by
  have hsound : sound (c :: cs) = [] := by simp [sound, h]
  rw [outcome, hsound]
  simp [deltas, ending, h]

theorem outcome_sound {c : Chunk} (h : c.error = none) (cs : List Chunk) :
    outcome pace a (c :: cs) =
      ((outcome pace (absorb { a with pending := [] } c) cs).1,
        deltas pace a.answer [c] ++ (outcome pace (absorb { a with pending := [] } c) cs).2) := by
  have hsound : sound (c :: cs) = c :: sound cs := by simp [sound, h]
  rw [outcome, hsound]
  simp [outcome, deltas, ending, h, absorb]

theorem flush_outcome (pace : Nat → Nat) (h : a.done = false) (cs : List Chunk) :
    ((a.flush pace).1.done ∧
        outcome pace a ((chunkOf? a.pending).toList ++ cs) = a.flush pace) ∨
      ((a.flush pace).1.done = false ∧ (a.flush pace).1.pending = [] ∧
        outcome pace a ((chunkOf? a.pending).toList ++ cs) =
          ((outcome pace (a.flush pace).1 cs).1,
            (a.flush pace).2 ++ (outcome pace (a.flush pace).1 cs).2)) := by
  cases hp : a.pending with
  | nil =>
      have hflush : a.flush pace = (a, []) := by simp [flush, hp]
      rw [hflush]
      exact .inr ⟨h, hp, rfl⟩
  | cons d ds =>
      cases hc : Chunk.ofText? ("\n".intercalate (d :: ds)) with
      | none =>
          have hflush : a.flush pace = ({ a with pending := [] }, []) := by simp [flush, hp, hc]
          have hchunk : chunkOf? (d :: ds) = none := hc
          rw [hflush, hchunk]
          exact .inr ⟨h, rfl, rfl⟩
      | some c =>
          have hchunk : chunkOf? (d :: ds) = some c := hc
          rw [hchunk, Option.toList_some, List.singleton_append]
          cases herror : c.error with
          | some error =>
              have hflush : a.flush pace =
                  ({ a with pending := [], done := true }, [.failed (Chunk.errorText error)]) := by
                simp [flush, hp, hc, herror]
              rw [hflush]
              exact .inl ⟨rfl, outcome_error herror cs⟩
          | none =>
              have hflush : a.flush pace =
                  (absorb { a with pending := [] } c, deltas pace a.answer [c]) := by
                simp [flush, hp, hc, herror, deltas, absorb]
              rw [hflush]
              exact .inr ⟨h, rfl, outcome_sound herror cs⟩

theorem finish_outcome (h : a.done = false) :
    a.finish pace = outcome pace a (chunkOf? a.pending).toList := by
  have hflush := flush_outcome pace h []
  rw [List.append_nil] at hflush
  rw [finish, if_neg (by simp [h])]
  obtain ⟨b, steps, hb⟩ : ∃ b steps, a.flush pace = (b, steps) := ⟨_, _, rfl⟩
  rw [hb] at hflush ⊢
  rcases hflush with ⟨hdone, he⟩ | ⟨hdone, hpending, he⟩
  · rw [he]
    exact if_pos hdone
  · obtain ⟨hopen, hempty⟩ : b.done = false ∧ b.pending = [] := ⟨hdone, hpending⟩
    rw [he]
    simp [hopen, outcome, sound, deltas, ending, ← hempty]

end Batch

namespace Assembler

open Batch

variable {pace : Nat → Nat} {a : Assembler}

/-! What each kind of line does while the stream is open. -/

theorem push_blank (h : a.done = false) (hblank : isBlank line) :
    a.push pace line = a.flush pace := by
  rw [← isEmpty_trim] at hblank
  rw [push, if_neg (by simp [h]), if_pos hblank]

theorem push_other (h : a.done = false) (hblank : isBlank line = false)
    (hp : payload? line = none) : a.push pace line = (a, []) := by
  rw [← isEmpty_trim] at hblank
  simp [push, h, hblank, hp]

theorem push_sentinel (h : a.done = false) (hblank : isBlank line = false)
    (hp : payload? line = some "[DONE]") : a.push pace line = a.finish pace := by
  rw [← isEmpty_trim] at hblank
  simp [push, h, hblank, hp]

theorem push_data (h : a.done = false) (hblank : isBlank line = false)
    (hp : payload? line = some data) (hdata : data ≠ "[DONE]") :
    a.push pace line = ({ a with pending := a.pending ++ [data] }, []) := by
  rw [← isEmpty_trim] at hblank
  simp [push, h, hblank, hp, hdata]

theorem readAll_done (h : a.done) (lines : List String) : a.readAll pace lines = (a, []) := by
  induction lines with
  | nil => simp [readAll, finish, h]
  | cons line lines ih => simp [readAll, push, h, ih]

theorem finish_done (pace : Nat → Nat) (a : Assembler) : (a.finish pace).1.done := by
  rw [finish]
  split
  · assumption
  · simp only
    split
    · assumption
    · rfl

theorem readAll_outcome (h : a.done = false) (lines : List String) :
    a.readAll pace lines = outcome pace a (chunksAfter a.pending lines) := by
  -- the pending data is the front part of the first event of the lines that are left
  induction lines generalizing a with
  | nil => rw [readAll, finish_outcome h, chunksAfter_end]
  | cons line lines ih =>
      rw [readAll]
      cases hblank : isBlank line with
      | true =>
          rw [push_blank h hblank, chunksAfter_blank _ hblank]
          rcases flush_outcome pace h (chunksAfter [] lines) with
            ⟨hdone, he⟩ | ⟨hdone, hpending, he⟩
          · simp [readAll_done hdone, he]
          · simp [ih hdone, hpending, he]
      | false =>
          cases hp : payload? line with
          | none => simp [push_other h hblank hp, chunksAfter_other _ hblank hp, ih h]
          | some data =>
              by_cases hdata : data = "[DONE]"
              · subst hdata
                rw [push_sentinel h hblank hp, chunksAfter_done _ hp, ← finish_outcome h]
                simp [readAll_done (finish_done pace a)]
              · rw [push_data h hblank hp hdata, chunksAfter_data _ hblank hp hdata]
                exact ih (a := { a with pending := a.pending ++ [data] }) h

end Assembler

namespace Batch

/-! What taking in many chunks makes of each part of the reply. -/

variable (cs : List Chunk) (a : Assembler)

theorem foldl_answer : (cs.foldl absorb a).answer = a.answer ++ String.join (cs.map Chunk.text) := by
  induction cs generalizing a with
  | nil => simp
  | cons c cs ih => simp [ih, absorb, String.append_assoc]

theorem lastOr_cons (default v : α) (values : List α) :
    lastOr default (v :: values) = lastOr v values := by
  simp [lastOr, List.getLast?_cons]

theorem foldl_model : (cs.foldl absorb a).model =
    lastOr a.model (cs.filterMap fun c => Completion.namedModel c.model) := by
  induction cs generalizing a with
  | nil => rfl
  | cons c cs ih =>
      rw [List.foldl_cons, ih]
      cases h : Completion.namedModel c.model with
      | none => simp [absorb, h]
      | some model => simp only [absorb, h, Option.getD_some, List.filterMap_cons, lastOr_cons]

theorem foldl_messageId : (cs.foldl absorb a).messageId =
    if a.messageId.isEmpty then ((cs.filterMap (·.id)).find? (!·.isEmpty)).getD ""
    else a.messageId := by
  induction cs generalizing a with
  | nil =>
      split
      · rename_i hempty
        exact String.isEmpty_iff.1 hempty
      · rfl
  | cons c cs ih =>
      rw [List.foldl_cons, ih]
      by_cases hempty : a.messageId.isEmpty
      · cases hid : c.id with
        | none => simp [absorb, hid, hempty]
        | some id => by_cases hid' : id.isEmpty <;> simp [absorb, hid, hempty, hid']
      · simp [absorb, hempty]

theorem foldl_usage : ((cs.foldl absorb a).usage).getD [] =
    lastOr (a.usage.getD []) ((cs.filterMap (·.usage)).filter (!·.isEmpty)) := by
  induction cs generalizing a with
  | nil => rfl
  | cons c cs ih =>
      rw [List.foldl_cons, ih]
      cases husage : c.usage with
      | none => simp [absorb, husage]
      | some usage =>
          rw [List.filterMap_cons_some husage, List.filter_cons]
          by_cases hempty : usage.isEmpty
          · simp [absorb, husage, hempty, Option.filter]
          · simp [absorb, husage, hempty, Option.filter, lastOr_cons]

theorem foldl_reply (requestedModel : String) :
    (cs.foldl absorb (start requestedModel)).reply = reply requestedModel cs := by
  rw [Assembler.reply, foldl_answer, foldl_model, foldl_messageId, foldl_usage]
  simp [start, reply]

theorem readAll_reply (requestedModel : String) (maxTokens : Nat) (lines : List String) :
    ((start requestedModel).readAll (paceOf maxTokens) lines).1.reply =
      reply requestedModel (sound (chunks lines)) := by
  rw [readAll_outcome rfl, start, chunksAfter_nil]
  exact foldl_reply _ requestedModel

end Batch

end Stream

end Advisor

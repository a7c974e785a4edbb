import Advisor.Proofs.Stream.Batch
import Advisor.Proofs.Stream.Relaying
import Mathlib.Data.List.TakeWhile

namespace Advisor

namespace Stream

open Dialogue Assembler Batch

/-! What a stream brings for its client, and how much of it the client is handed when the stream ends
well, breaks off, or finds nobody listening. -/

namespace Signal

def line? : Signal → Option String
  | line text => some text
  | fault _ | pause _ => none

def fault? : Signal → Option Failure
  | fault why => some why
  | line _ | pause _ => none

end Signal

def linesOf (signals : List Signal) : List String :=
  (signals.takeWhile (·.fault?.isNone)).filterMap Signal.line?

/-- Why a stream breaks off, unless its sentinel comes first. -/
def breakOff? (signals : List Signal) : Option Failure :=
  if (linesOf signals).any (payload? · == some "[DONE]") then none
  else signals.findSome? Signal.fault?

/-- The lines up to the last blank one. The event after it has not ended. -/
def Batch.ended : List String → List String
  | [] => []
  | line :: lines => if (line :: lines).any isBlank then line :: ended lines else []

/-- The chunks that are complete when a stream is over or breaks off. -/
def brought (signals : List Signal) : List Chunk :=
  match breakOff? signals with
  | none => chunks (linesOf signals)
  | some _ => chunks (ended (linesOf signals))

def Step.piece? : Step → Option (String × Nat)
  | delta text pct => some (text, pct)
  | done | failed _ => none

/-- The text of each chunk before the first error, unless it has none, with the progress then. -/
def pieces (pace : Nat → Nat) (signals : List Signal) : List (String × Nat) :=
  (deltas pace "" (sound (brought signals))).filterMap Step.piece?

/-- What a client hears of pieces. -/
def handed (ps : List (String × Nat)) : List Act :=
  ps.map fun p => .sent (.delta p.1 p.2) true

section Recurrences

variable {signals : List Signal} {line data : String} {lines : List String}

theorem linesOf_line (text : String) (signals : List Signal) :
    linesOf (.line text :: signals) = text :: linesOf signals :=
  rfl

theorem breakOff?_line (h : payload? line ≠ some "[DONE]") :
    breakOff? (.line line :: signals) = breakOff? signals := by
  have hany : (linesOf (.line line :: signals)).any (payload? · == some "[DONE]") =
      (linesOf signals).any (payload? · == some "[DONE]") := by
    rw [linesOf_line, List.any_cons, beq_false_of_ne h, Bool.false_or]
  rw [breakOff?, breakOff?, hany]
  rfl

theorem breakOff?_sentinel (h : payload? line = some "[DONE]") :
    breakOff? (.line line :: signals) = none := by
  rw [breakOff?, linesOf_line, List.any_cons, h]
  rfl

theorem ended_blank (h : isBlank line) : ended (line :: lines) = line :: ended lines := by
  rw [ended, if_pos]
  rw [List.any_cons, h, Bool.true_or]

theorem ended_other (h : isBlank line = false) :
    ended (line :: lines) = if lines.any isBlank then line :: ended lines else [] := by
  rw [ended, List.any_cons, h, Bool.false_or]

theorem ended_open (h : lines.any isBlank = false) : ended lines = [] := by
  cases lines with
  | nil => rfl
  | cons line lines => rw [ended, h]; rfl

def completedAfter (pending : List String) (lines : List String) : List Chunk :=
  if lines.any isBlank then chunksAfter pending (ended lines) else []

theorem completedAfter_nil (lines : List String) :
    completedAfter [] lines = chunksAfter [] (ended lines) := by
  rw [completedAfter]
  cases h : lines.any isBlank with
  | true => rfl
  | false => rw [ended_open h]; rfl

theorem completedAfter_blank (pending : List String) (h : isBlank line) :
    completedAfter pending (line :: lines) =
      (chunkOf? pending).toList ++ completedAfter [] lines := by
  rw [completedAfter, List.any_cons, h, Bool.true_or, if_pos rfl, ended_blank h,
    chunksAfter_blank pending h, completedAfter_nil]

theorem completedAfter_other (pending : List String) (h : isBlank line = false)
    (hp : payload? line = none) :
    completedAfter pending (line :: lines) = completedAfter pending lines := by
  rw [completedAfter, completedAfter, List.any_cons, h, Bool.false_or]
  cases hany : lines.any isBlank with
  | true => rw [if_pos rfl, if_pos rfl, ended_other h, if_pos hany, chunksAfter_other pending h hp]
  | false => simp only [Bool.false_eq_true, if_false]

theorem completedAfter_data (pending : List String) (h : isBlank line = false)
    (hp : payload? line = some data) (hdata : data ≠ "[DONE]") :
    completedAfter pending (line :: lines) = completedAfter (pending ++ [data]) lines := by
  rw [completedAfter, completedAfter, List.any_cons, h, Bool.false_or]
  cases hany : lines.any isBlank with
  | true =>
      rw [if_pos rfl, if_pos rfl, ended_other h, if_pos hany, chunksAfter_data pending h hp hdata]
  | false => simp only [Bool.false_eq_true, if_false]

def broughtAfter (pending : List String) (signals : List Signal) : List Chunk :=
  match breakOff? signals with
  | none => chunksAfter pending (linesOf signals)
  | some _ => completedAfter pending (linesOf signals)

theorem broughtAfter_nil (signals : List Signal) : broughtAfter [] signals = brought signals := by
  rw [broughtAfter, brought]
  cases breakOff? signals with
  | none => exact chunksAfter_nil _
  | some why => exact (completedAfter_nil _).trans (chunksAfter_nil _)

theorem broughtAfter_blank (pending : List String) (h : isBlank line) :
    broughtAfter pending (.line line :: signals) =
      (chunkOf? pending).toList ++ broughtAfter [] signals := by
  have hp : payload? line ≠ some "[DONE]" := by rw [payload?_of_blank h]; simp
  rw [broughtAfter, broughtAfter, breakOff?_line hp, linesOf_line]
  cases breakOff? signals with
  | none => exact chunksAfter_blank pending h
  | some why => exact completedAfter_blank pending h

theorem broughtAfter_other (pending : List String) (h : isBlank line = false)
    (hp : payload? line = none) :
    broughtAfter pending (.line line :: signals) = broughtAfter pending signals := by
  have hne : payload? line ≠ some "[DONE]" := by rw [hp]; simp
  rw [broughtAfter, broughtAfter, breakOff?_line hne, linesOf_line]
  cases breakOff? signals with
  | none => exact chunksAfter_other pending h hp
  | some why => exact completedAfter_other pending h hp

theorem broughtAfter_data (pending : List String) (h : isBlank line = false)
    (hp : payload? line = some data) (hdata : data ≠ "[DONE]") :
    broughtAfter pending (.line line :: signals) = broughtAfter (pending ++ [data]) signals := by
  have hne : payload? line ≠ some "[DONE]" := by rw [hp]; simpa using hdata
  rw [broughtAfter, broughtAfter, breakOff?_line hne, linesOf_line]
  cases breakOff? signals with
  | none => exact chunksAfter_data pending h hp hdata
  | some why => exact completedAfter_data pending h hp hdata

theorem broughtAfter_sentinel (pending : List String) (hp : payload? line = some "[DONE]") :
    broughtAfter pending (.line line :: signals) = (chunkOf? pending).toList := by
  rw [broughtAfter, breakOff?_sentinel hp, linesOf_line]
  exact chunksAfter_done pending hp

end Recurrences

variable {pace : Nat → Nat} {a : Assembler}

theorem deliver_append (steps more : List Step) :
    deliver (steps ++ more) = deliver steps >>= fun _ => deliver more := by
  induction steps with
  | nil => rfl
  | cons step steps ih =>
      cases step with
      | delta text pct =>
          rw [List.cons_append, deliver, deliver, ih, bind_assoc]
      | done => exact ih
      | failed message => rfl

theorem relay_done (h : a.done) (signals : List Signal) : relay pace a signals = conclude a := by
  cases signals with
  | nil => rw [relay, if_pos h]
  | cons signal signals =>
      unfold relay
      exact if_pos h

theorem relay_end (pace : Nat → Nat) (a : Assembler) :
    relay pace a [] =
      if a.done then conclude a
      else deliver (a.finish pace).2 >>= fun _ => relay pace (a.finish pace).1 [] := by
  rw [relay_done (finish_done pace a)]
  rfl

def close (a : Assembler) : Option Failure → Attempt Reply
  | some why => throw why
  | none => conclude a

def tell (pace : Nat → Nat) (a : Assembler) (cs : List Chunk) (off : Option Failure) :
    Attempt Reply :=
  deliver (outcome pace a cs).2 >>= fun _ => close (outcome pace a cs).1 off

theorem tell_end (h : a.done = false) (signals : List Signal) :
    tell pace a (chunkOf? a.pending).toList none =
      deliver (a.finish pace).2 >>= fun _ => relay pace (a.finish pace).1 signals := by
  rw [relay_done (finish_done pace a), finish_outcome h]
  rfl

theorem flush_failed (h : a.done = false) (hdone : (a.flush pace).1.done) :
    ∃ message, (a.flush pace).2 = [.failed message] := by
  rw [flush] at hdone ⊢
  split at hdone
  · rw [h] at hdone
    cases hdone
  · rename_i hpending
    rw [if_neg hpending]
    simp only at hdone ⊢
    split at hdone
    · rw [h] at hdone
      cases hdone
    · split at hdone
      · rename_i error herror
        exact ⟨Chunk.errorText error, by simp_all⟩
      · rw [absorb, h] at hdone
        cases hdone

theorem course_tell_flush (h : a.done = false) {cs : List Chunk} {off : Option Failure}
    {x : Attempt Reply}
    (hc : Course (deliver (a.flush pace).2 >>= fun _ => x).run acts (some result))
    (hx : (a.flush pace).1.done = false → (a.flush pace).1.pending = [] → ∀ acts,
      Course x.run acts (some result) →
        Course (tell pace (a.flush pace).1 cs off).run acts (some result)) :
    Course (tell pace a ((chunkOf? a.pending).toList ++ cs) off).run acts (some result) := by
  rcases flush_outcome pace h cs with ⟨hdone, he⟩ | ⟨hopen, hpending, he⟩
  · obtain ⟨message, hsteps⟩ := flush_failed h hdone
    rw [hsteps] at hc
    rw [tell, he, hsteps]
    exact hc
  · have htold := Attempt.course_bind_mono hc fun _ => hx hopen hpending
    rw [tell, ← bind_assoc, ← deliver_append] at htold
    rw [tell, he]
    exact htold

/-- A stream is relayed as it would be told at one go, apart from the waiting. -/
theorem relay_tells (h : a.done = false)
    (hc : Course (relay pace a signals).run acts (some result)) :
    Course (tell pace a (broughtAfter a.pending signals) (breakOff? signals)).run acts
      (some result) := by
  induction signals generalizing a acts with
  | nil =>
      have hbrought : broughtAfter a.pending [] = (chunkOf? a.pending).toList :=
        chunksAfter_end a.pending
      rw [hbrought]
      rw [relay_end, if_neg (by simp [h])] at hc
      rw [← tell_end h []] at hc
      exact hc
  | cons signal signals ih =>
      unfold relay at hc
      rw [if_neg (by simp [h])] at hc
      cases signal with
      | fault why => exact hc
      | pause lapse =>
          rcases Attempt.course_lift_bind hc with ⟨_, before, after, rfl, hp, hr⟩ | ⟨he, _⟩
          · obtain ⟨rfl, _⟩ := course_pause hp
            exact ih h hr
          · cases he
      | line text =>
          simp only at hc
          cases hblank : isBlank text with
          | true =>
              rw [push_blank h hblank] at hc
              rw [broughtAfter_blank _ hblank, breakOff?_line (by simp [payload?_of_blank hblank])]
              refine course_tell_flush h hc fun hopen hpending acts hr => ?_
              have htold := ih hopen hr
              rw [hpending] at htold
              exact htold
          | false =>
              cases hp : payload? text with
              | none =>
                  rw [push_other h hblank hp] at hc
                  rw [broughtAfter_other _ hblank hp, breakOff?_line (by simp [hp])]
                  exact ih h hc
              | some data =>
                  by_cases hdata : data = "[DONE]"
                  · subst hdata
                    rw [push_sentinel h hblank hp, ← tell_end h] at hc
                    rw [broughtAfter_sentinel _ hp, breakOff?_sentinel hp]
                    exact hc
                  · rw [push_data h hblank hp hdata] at hc
                    rw [broughtAfter_data _ hblank hp hdata,
                      breakOff?_line (by simpa [hp] using hdata)]
                    exact ih (a := { a with pending := a.pending ++ [data] }) h hc

section Told

variable {cs : List Chunk} {ps : List (String × Nat)}

def Step.ofPiece (p : String × Nat) : Step := .delta p.1 p.2

theorem deltas_eq_map (pace : Nat → Nat) (before : String) (cs : List Chunk) :
    deltas pace before cs = ((deltas pace before cs).filterMap Step.piece?).map Step.ofPiece := by
  induction cs generalizing before with
  | nil => rfl
  | cons c cs ih =>
      rw [deltas, List.filterMap_append, List.map_append, ← ih]
      by_cases hempty : c.text.isEmpty
      · simp [hempty]
      · simp [hempty, Step.piece?, Step.ofPiece]

theorem join_pieces (pace : Nat → Nat) (before : String) (cs : List Chunk) :
    String.join (((deltas pace before cs).filterMap Step.piece?).map (·.1)) =
      String.join (cs.map Chunk.text) := by
  induction cs generalizing before with
  | nil => rfl
  | cons c cs ih =>
      rw [deltas, List.filterMap_append, List.map_append, String.join_append, ih, List.map_cons]
      by_cases hempty : c.text.isEmpty
      · have htext : c.text = "" := String.isEmpty_iff.1 hempty
        simp [htext]
      · simp [hempty, Step.piece?]

theorem piece_ne_empty {before : String}
    (h : p ∈ (deltas pace before cs).filterMap Step.piece?) : p.1 ≠ "" := by
  induction cs generalizing before with
  | nil => cases h
  | cons c cs ih =>
      rw [deltas, List.filterMap_append, List.mem_append] at h
      rcases h with h | h
      · by_cases hempty : c.text.isEmpty
        · simp [hempty] at h
        · obtain rfl : p = (c.text, pace (Text.runeCount (before ++ c.text))) := by
            simpa [hempty, Step.piece?] using h
          exact fun htext => hempty (String.isEmpty_iff.2 htext)
      · exact ih h

theorem course_deliver_pieces
    (h : Course (deliver (ps.map Step.ofPiece)).run acts (some result)) :
    (acts = handed ps ∧ result = .ok ()) ∨
      ∃ before text pct after, ps = before ++ (text, pct) :: after ∧
        acts = handed before ++ [.sent (.delta text pct) false] ∧ result = .error .cancelled := by
  induction ps generalizing acts with
  | nil =>
      obtain ⟨rfl, he⟩ := course_pure (a := Except.ok ()) h
      exact .inl ⟨rfl, Option.some.inj he⟩
  | cons p ps ih =>
      rcases Attempt.course_send_bind h with ⟨rest, rfl, hd⟩ | ⟨rfl, he⟩ | ⟨_, he⟩
      · rcases ih hd with ⟨rfl, hr⟩ | ⟨before, text, pct, after, rfl, rfl, hr⟩
        · exact .inl ⟨rfl, hr⟩
        · exact .inr ⟨p :: before, text, pct, after, rfl, rfl, hr⟩
      · exact .inr ⟨[], p.1, p.2, ps, rfl, rfl, Option.some.inj he⟩
      · cases he

/-- An assembler has a usage only if it is not empty. -/
def Telling (a : Assembler) : Prop := ∀ usage, a.usage = some usage → usage ≠ []

theorem telling_absorb (h : Telling a) (c : Chunk) : Telling (a.absorb c) := by
  intro usage he
  cases hc : c.usage.filter (fun u => !u.isEmpty) with
  | none => exact h usage (by simpa [absorb, hc] using he)
  | some u =>
      have hu : (a.absorb c).usage = some u := by simp [absorb, hc]
      have hspeaks := (Option.filter_eq_some_iff.1 hc).2
      rw [hu] at he
      cases he
      simpa using hspeaks

theorem telling_foldl (h : Telling a) (cs : List Chunk) : Telling (cs.foldl absorb a) := by
  induction cs generalizing a with
  | nil => exact h
  | cons c cs ih => exact ih (telling_absorb h c)

/-- What a client is told of the usage of a reply. -/
def tidings (reply : Reply) (heard : Bool) : List Act :=
  if reply.usage.isEmpty then [] else [.sent (.usage reply.usage usagePct) heard]

theorem course_conclude_told (h : Telling a) (hc : Course (conclude a).run acts (some result)) :
    (acts = tidings a.reply true ∧ result = .ok a.reply) ∨
      (a.reply.usage ≠ [] ∧ acts = tidings a.reply false ∧ result = .error .cancelled) := by
  rw [conclude] at hc
  cases hu : a.usage with
  | none =>
      rw [hu] at hc
      obtain ⟨rfl, he⟩ := course_pure (a := Except.ok a.reply) hc
      have hreply : a.reply.usage = [] := by rw [Assembler.reply, hu]; rfl
      exact .inl ⟨by rw [tidings, hreply]; rfl, Option.some.inj he⟩
  | some usage =>
      rw [hu] at hc
      have hspeaks : usage ≠ [] := h usage hu
      have hreply : a.reply.usage = usage := by rw [Assembler.reply, hu]; rfl
      have htidings (heard : Bool) :
          tidings a.reply heard = [.sent (.usage usage usagePct) heard] := by
        rw [tidings, hreply, if_neg (by simpa using hspeaks)]
      rw [htidings, htidings, hreply]
      rcases Attempt.course_send_bind hc with ⟨rest, rfl, hp⟩ | ⟨rfl, he⟩ | ⟨_, he⟩
      · obtain ⟨rfl, he⟩ := course_pure (a := Except.ok a.reply) hp
        exact .inl ⟨rfl, Option.some.inj he⟩
      · exact .inr ⟨hspeaks, rfl, Option.some.inj he⟩
      · cases he

end Told

section Endings

variable (pace : Nat → Nat) (requestedModel : String) (signals : List Signal)

/-- The stream is over and all of its reply has been told: the answer piece by piece, and then the usage
if there is any. -/
structure Delivered (reply : Reply) (told : List Act) : Prop where
  unbroken : breakOff? signals = none
  sound : ∀ c ∈ brought signals, c.error = none
  whole : reply = Batch.reply requestedModel (brought signals)
  answer : String.join ((pieces pace signals).map (·.1)) = reply.answer
  nonempty : ∀ p ∈ pieces pace signals, p.1 ≠ ""
  told : told = handed (pieces pace signals) ++ tidings reply true

/-- What stops a relay, and what has been told by then: that the stream breaks off, a chunk with an error,
or a client that misses a piece or the usage. -/
inductive Stopped : Failure → List Act → Prop
  | fault (off : breakOff? signals = some why) (sound : ∀ c ∈ brought signals, c.error = none) :
      Stopped why (handed (pieces pace signals))
  | chunk (failed : (brought signals).findSome? (·.error) = some error) :
      Stopped (.provider ("stream error: " ++ Chunk.errorText error))
        (handed (pieces pace signals))
  | piece (split : pieces pace signals = before ++ (text, pct) :: after) :
      Stopped .cancelled (handed before ++ [.sent (.delta text pct) false])
  | usage (unbroken : breakOff? signals = none) (sound : ∀ c ∈ brought signals, c.error = none)
      (speaks : (Batch.reply requestedModel (brought signals)).usage ≠ []) :
      Stopped .cancelled (handed (pieces pace signals) ++
        tidings (Batch.reply requestedModel (brought signals)) false)

end Endings

theorem handed_unmetered (ps : List (String × Nat)) (usage : Json.Fields) (pct : Nat) :
    .sent (.usage usage pct) true ∉ handed ps := by
  simp [handed]

theorem Stopped.unmetered (h : Stopped pace requestedModel signals e told) (usage : Json.Fields)
    (pct : Nat) : .sent (.usage usage pct) true ∉ told := by
  cases h with
  | fault | chunk => exact handed_unmetered _ usage pct
  | piece split => simp [handed_unmetered]
  | usage unbroken sound speaks => simp [handed_unmetered, tidings]

theorem sound_of_all {cs : List Chunk} (h : ∀ c ∈ cs, c.error = none) : sound cs = cs := by
  rw [sound, List.takeWhile_eq_self_iff]
  intro c hc
  rw [h c hc]
  rfl

theorem ending_failed {cs : List Chunk} (h : cs.findSome? (·.error) = some error) :
    ending cs = .failed (Chunk.errorText error) := by
  rw [ending, h]

theorem ending_done {cs : List Chunk} (h : cs.findSome? (·.error) = none) : ending cs = .done := by
  rw [ending, h]

theorem tell_eq (pace : Nat → Nat) (requestedModel : String) (signals : List Signal)
    (off : Option Failure) :
    tell pace (.start requestedModel) (brought signals) off =
      deliver ((pieces pace signals).map Step.ofPiece) >>= fun _ =>
        deliver [ending (brought signals)] >>= fun _ =>
          close (outcome pace (.start requestedModel) (brought signals)).1 off := by
  have hsteps : (outcome pace (.start requestedModel) (brought signals)).2 =
      (pieces pace signals).map Step.ofPiece ++ [ending (brought signals)] := by
    rw [pieces, ← deltas_eq_map]
    rfl
  rw [tell, hsteps, deliver_append, bind_assoc]

theorem course_rest
    (hc : Course (deliver [ending (brought signals)] >>= fun _ =>
      close (outcome pace (.start requestedModel) (brought signals)).1
        (breakOff? signals)).run acts (some result)) :
    (∃ reply, result = .ok reply ∧
        Delivered pace requestedModel signals reply (handed (pieces pace signals) ++ acts)) ∨
      ∃ e, result = .error e ∧
        Stopped pace requestedModel signals e (handed (pieces pace signals) ++ acts) := by
  cases hfailed : (brought signals).findSome? (·.error) with
  | some error =>
      rw [ending_failed hfailed] at hc
      obtain ⟨rfl, he⟩ := course_pure (a := Except.error _) hc
      rw [List.append_nil]
      exact .inr ⟨_, Option.some.inj he, .chunk hfailed⟩
  | none =>
      have hsound : ∀ c ∈ brought signals, c.error = none := List.findSome?_eq_none_iff.1 hfailed
      rw [ending_done hfailed] at hc
      cases hoff : breakOff? signals with
      | some why =>
          rw [hoff] at hc
          obtain ⟨rfl, he⟩ := course_pure (a := Except.error why) hc
          rw [List.append_nil]
          exact .inr ⟨_, Option.some.inj he, .fault hoff hsound⟩
      | none =>
          rw [hoff] at hc
          have htelling : Telling (outcome pace (.start requestedModel) (brought signals)).1 :=
            telling_foldl (a := .start requestedModel) (by simp [Telling, start]) _
          have hreply : (outcome pace (.start requestedModel) (brought signals)).1.reply =
              Batch.reply requestedModel (brought signals) := by
            have hfold := foldl_reply (sound (brought signals)) requestedModel
            rw [sound_of_all hsound] at hfold
            rw [← hfold, outcome, sound_of_all hsound]
            rfl
          rcases course_conclude_told htelling hc with ⟨rfl, rfl⟩ | ⟨hspeaks, rfl, rfl⟩
          · refine .inl ⟨_, rfl, hoff, hsound, hreply, ?_, fun p => piece_ne_empty, rfl⟩
            rw [pieces, join_pieces, sound_of_all hsound, hreply]
            rfl
          · rw [hreply] at hspeaks ⊢
            exact .inr ⟨_, rfl, .usage hoff hsound hspeaks⟩

theorem course_tell (hc : Course (tell pace (.start requestedModel) (brought signals)
      (breakOff? signals)).run acts (some result)) :
    (∃ reply, result = .ok reply ∧ Delivered pace requestedModel signals reply acts) ∨
      ∃ e, result = .error e ∧ Stopped pace requestedModel signals e acts := by
  rw [tell_eq] at hc
  rcases Attempt.course_bind hc with ⟨_, before, after, rfl, hd, hrest⟩ | ⟨e, he, hd⟩ | ⟨he, _⟩
  · rcases course_deliver_pieces hd with ⟨rfl, _⟩ | ⟨_, _, _, _, _, _, he⟩
    · exact course_rest hrest
    · cases he
  · rcases course_deliver_pieces hd with ⟨_, hok⟩ | ⟨before, text, pct, after, hsplit, rfl, hcancelled⟩
    · cases hok
    · cases he
      cases hcancelled
      exact .inr ⟨_, rfl, .piece hsplit⟩
  · cases he

/-- A stream is relayed to an end, which a client that hears everything is told of completely: its pieces
make up the answer, and the usage comes last. Any other end is due to the stream or to the client, who by
then has been told of just the chunks that were complete. -/
theorem relay_delivers (w : World σ) (requestedModel : String) (maxTokens : Nat)
    (signals : List Signal) (s : Scene σ) :
    (∀ pace a, relay pace a [] =
      if a.done then conclude a
      else deliver (a.finish pace).2 >>= fun _ => relay pace (a.finish pace).1 []) ∧
    ∃ told,
      ((relay (paceOf maxTokens) (.start requestedModel) signals).run.run w s).2.acts =
        s.acts ++ told ∧
      (((relay (paceOf maxTokens) (.start requestedModel) signals).run.run w s).1 = none →
        w.Abandons) ∧
      (∀ reply, ((relay (paceOf maxTokens) (.start requestedModel) signals).run.run w s).1 =
          some (.ok reply) →
        Delivered (paceOf maxTokens) requestedModel signals reply told) ∧
      (∀ e, ((relay (paceOf maxTokens) (.start requestedModel) signals).run.run w s).1 =
          some (.error e) →
        Stopped (paceOf maxTokens) requestedModel signals e told ∧
          ∀ usage pct, .sent (.usage usage pct) true ∉ told) := by
  obtain ⟨told, hacts, hcourse, _⟩ :=
    run_course w (relay (paceOf maxTokens) (.start requestedModel) signals).run s
  have ends {result : Except Failure Reply}
      (hresult : ((relay (paceOf maxTokens) (.start requestedModel) signals).run.run w s).1 =
        some result) :
      (∃ reply, result = .ok reply ∧
          Delivered (paceOf maxTokens) requestedModel signals reply told) ∨
        ∃ e, result = .error e ∧ Stopped (paceOf maxTokens) requestedModel signals e told := by
    rw [hresult] at hcourse
    have htold := relay_tells rfl hcourse
    rw [start, broughtAfter_nil, ← start] at htold
    exact course_tell htold
  refine ⟨relay_end, told, hacts, run_abandoned, ?_, ?_⟩
  · intro reply hresult
    rcases ends hresult with ⟨_, he, hdelivered⟩ | ⟨_, he, _⟩ <;> cases he
    exact hdelivered
  · intro e hresult
    rcases ends hresult with ⟨_, he, _⟩ | ⟨_, he, hstopped⟩ <;> cases he
    exact ⟨hstopped, hstopped.unmetered⟩

end Stream

end Advisor

import Advisor.Proofs.Json.OneLine
import Advisor.Proofs.Split
import Advisor.Proofs.Stream.Telling
import Mathlib.Data.List.Forall2

/-!
The body of a streamed turn can be decoded in one way only. It has a line for each event, whatever stands in
the texts that the event carries, and the line reads as the event's object.
-/

namespace Advisor.Stream.Event

open Json

/-- What a client receives of events, all in all. -/
def body (events : List Event) : String := String.join (events.map toLine)

variable {events others : List Event}

theorem toList_body (events : List Event) :
    (body events).toList = (events.map (·.toJson.compact.toList)).flatMap (· ++ ['\n']) := by
  rw [body, String.toList_join, List.flatMap_map, List.flatMap_map]
  refine List.flatMap_congr fun e _ => ?_
  rw [toLine, String.toList_append]
  rfl

theorem newline_not_mem (events : List Event) :
    ∀ line ∈ events.map (·.toJson.compact.toList), '\n' ∉ line := by
  rw [List.forall_mem_map]
  exact fun e _ => (printed_compact e.toJson).newline_not_mem

theorem splitOnP_body (events : List Event) :
    (body events).toList.splitOnP (· == '\n') = events.map (·.toJson.compact.toList) ++ [[]] := by
  have hsplit := splitOnP_ended (newline_not_mem events) List.not_mem_nil
  rwa [List.append_nil, ← toList_body] at hsplit

theorem lines_body (events : List Event) : Text.lines (body events) = events.map (·.toJson.compact) := by
  unfold Text.lines
  rw [splitOnP_body]
  simp only [List.dropLast_concat, List.getLast?_concat, Option.getD_some, List.isEmpty_nil, if_true,
    List.map_map]
  refine List.map_congr_left fun e _ => ?_
  have hreturn : e.toJson.compact.toList.getLast? ≠ some '\r' := fun hlast =>
    (printed_compact e.toJson).return_not_mem (List.mem_of_getLast? hlast)
  simp only [Function.comp_apply, if_neg hreturn, String.ofList_toList]

/-- A line reads as an object with the type of an event, what the event carries and its share, and with
nothing else. It is parsed into one with the same members, unless these nest too deeply. -/
structure Tells (line : String) (e : Event) : Prop where
  read : Document.read line.toList =
    (.ofJson (.obj [("type", .str e.tag), e.payload, ("progress_pct", .ofNat e.pct)]), some [])
  parsed : e.toJson.depth < Decoder.fullRoom → ∃ fields, parse? line = some (.obj fields) ∧
    ∀ key, Fields.get? fields key = (Fields.get? e.members key).map merged

theorem Sound.tells {e : Event} (h : e.Sound) : Tells e.toJson.compact e where
  read := by
    have hread := read_compact h.legible
    rwa [toJson_eq] at hread ⊢
  parsed hdepth := by
    have hparse := parse?_compact h.legible hdepth
    refine ⟨mergedMembers [] e.members, ?_, fun key => ?_⟩
    · rw [hparse, toJson_eq]
      rfl
    · rw [get?_mergedMembers e.nodup_members]
      exact Option.or_none

theorem Tells.unique {line : String} {e f : Event} (he : Tells line e) (hf : Tells line f) : e = f := by
  have hsame := (Prod.mk.inj (he.read.symm.trans hf.read)).1
  refine toJson_injective ?_
  rw [toJson_eq, toJson_eq]
  exact eq_of_ofJson hsame

/-- A text has one line feed for each event, and what stands before each tells the event. -/
structure Frames (text : String) (events : List Event) : Prop where
  feeds : text.toList.count '\n' = events.length
  split : text.toList.splitOnP (· == '\n') = (Text.lines text).map String.toList ++ [[]]
  told : List.Forall₂ Tells (Text.lines text) events

theorem frames_body (h : ∀ e ∈ events, e.Sound) : Frames (body events) events where
  feeds := by
    rw [toList_body, count_ended (newline_not_mem events), List.length_map]
  split := by
    rw [lines_body, splitOnP_body, List.map_map]
    rfl
  told := by
    rw [lines_body, List.forall₂_map_left_iff, List.forall₂_same]
    exact fun e he => (h e he).tells

theorem Frames.unique {text : String} (h : Frames text events) (h' : Frames text others) :
    events = others := by
  have hunique : Relator.RightUnique Tells := fun _ _ _ => Tells.unique
  exact hunique.forall₂ h.told h'.told

/-- A body is decoded into the events that it was made of, and into no others. -/
theorem body_decodes_uniquely (h : ∀ e ∈ events, e.Sound) :
    Frames (body events) events ∧ (∀ others, Frames (body events) others → others = events) ∧
      ∀ others : List Event, (∀ e ∈ others, e.Sound) → body others = body events → others = events := by
  have hframes := frames_body h
  refine ⟨hframes, fun others hothers => hothers.unique hframes, fun others hsound hsame => ?_⟩
  have hothers := frames_body hsound
  rw [hsame] at hothers
  exact hothers.unique hframes

def mixedTurn : List Event :=
  let usage : Fields := [("total_tokens", .ofNat 7)]
  [.progress "classify" 5, .delta "a line\nand a \"quote\"\r\n" 45, .usage usage 96,
    .result ⟨"Hi\ttrader", "provider", "m-1", "", .general, .start "r-1", ["no\nwiki"], "c-1", usage⟩ 100,
    .error "\x00\\" 0]

theorem mixedTurn_sound : ∀ e ∈ mixedTurn, e.Sound := by
  have husage : LegibleMembers [("total_tokens", .ofNat 7)] := ⟨legible_ofNat (by decide), trivial⟩
  simp only [mixedTurn, List.forall_mem_cons]
  exact ⟨⟨by decide, trivial⟩, ⟨by decide, trivial⟩, ⟨by decide, husage⟩,
    ⟨by decide, Trail.fits_start _, husage⟩, ⟨by decide, trivial⟩, List.forall_mem_nil _⟩

theorem mixedTurn_decodes :
    (∀ e ∈ mixedTurn, e.Sound) ∧ Frames (body mixedTurn) mixedTurn ∧
      (∀ others, Frames (body mixedTurn) others → others = mixedTurn) ∧
        ∀ others : List Event, (∀ e ∈ others, e.Sound) → body others = body mixedTurn → others = mixedTurn :=
  ⟨mixedTurn_sound, body_decodes_uniquely mixedTurn_sound⟩

end Advisor.Stream.Event

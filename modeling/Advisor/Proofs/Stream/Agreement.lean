import Advisor.Proofs.Json.Records
import Advisor.Proofs.Stream.Batch

/-!
A completion comes to the same reply whether it is sent at once or as a stream of events.
-/

namespace Advisor

open Json

namespace Completion

/-- A typed part as an object. Other members, such as an image, may stand by. -/
def Part.Spelled (p : Part) (v : Json) : Prop :=
  ∃ ms, v = .obj ms ∧ (ms.map Prod.fst).Nodup ∧ said ms "type" = .ofOption .str p.kind ∧
    said ms "text" = .ofOption .str p.text

/-- A content as a string or as an array of typed parts. -/
inductive Content.Spelled : Content → Json → Prop
  | text (s : String) : Spelled (.text s) (.str s)
  | parts (spelled : List.Forall₂ Part.Spelled ps items) : Spelled (.parts ps) (.arr items)

/-- A choice that carries a content under a name. -/
def Carries (name : String) (content : Content) (choice : Json) : Prop :=
  ∃ cs ms, choice = .obj cs ∧ (cs.map Prod.fst).Nodup ∧ said cs name = .obj ms ∧
    (ms.map Prod.fst).Nodup ∧ content.Spelled (said ms "content")

/-- What a completion and an event of its stream have in common: an object with one choice. Other members may
stand by, and what is `none` may be missing or null. -/
structure Tells (name : String) (id model : Option String) (usage : Option Fields)
    (content : Content) (ms : List (String × Json)) : Prop where
  distinct : (ms.map Prod.fst).Nodup
  id : said ms "id" = .ofOption .str id
  model : said ms "model" = .ofOption .str model
  usage : (said ms "usage").merged = .ofOption .obj usage
  choice : ∃ choice, said ms "choices" = .arr [choice] ∧ Carries name content choice

theorem Part.Spelled.decoder {p : Part} {v : Json} (h : p.Spelled v) (hdepth : v.depth < room) :
    Part.decoder room (.ofJson v) = .ok p := by
  obtain ⟨ms, rfl, hdistinct, hkind, htext⟩ := h
  have hroom : 1 < room := by
    rw [depth] at hdepth
    omega
  obtain ⟨r, hr⟩ : ∃ r, Part.decoder room (.ofJson (.obj ms)) = .ok r := by
    refine Decoder.exists_record hroom hdistinct (by simp [Decoder.defaulted]) ?_
    simp only [List.forall_mem_cons]
    exact ⟨Decoder.takes_defaulted (Decoder.option_string hkind),
      Decoder.takes_defaulted (Decoder.option_string htext), by simp⟩
  have hk : r.kind = p.kind :=
    Decoder.record_field "type" Part.kind hroom hdistinct hr (Decoder.option_string hkind)
      (fun _ => rfl) rfl (fun _ _ => rfl) (by simp)
  have ht : r.text = p.text :=
    Decoder.record_field "text" Part.text hroom hdistinct hr (Decoder.option_string htext)
      (fun _ => rfl) rfl (fun _ _ => rfl) (by simp)
  calc Part.decoder room (.ofJson (.obj ms))
    _ = .ok ⟨r.kind, r.text⟩ := hr
    _ = .ok p := by rw [hk, ht]

theorem Content.Spelled.decoder {content : Content} {v : Json} (h : content.Spelled v)
    (hdepth : v.depth < room) : Content.decoder room (.ofJson v) = .ok content := by
  cases h with
  | text s => rfl
  | @parts ps items spelled =>
      have hroom : 1 < room := by
        rw [depth] at hdepth
        omega
      have hread : List.Forall₂ (fun p v => Part.decoder (room - 1) (.ofJson v) = .ok p) ps items := by
        rw [depth] at hdepth
        have hitems : ∀ v ∈ items, v.depth < room - 1 := by
          intro v hv
          have := depth_item hv
          omega
        clear hdepth
        induction spelled with
        | nil => exact .nil
        | cons hp _ ih =>
            exact .cons (hp.decoder (hitems _ (List.mem_cons_self ..)))
              (ih fun v hv => hitems v (List.mem_cons_of_mem _ hv))
      unfold Content.decoder
      rw [value_ofJson _ hdepth]
      change (Decoder.list Part.decoder room (.ofJson (.arr items)) >>= _) = _
      rw [Decoder.list_ofItems hroom hread]
      rfl

theorem Content.Spelled.option {content : Content} {v : Json} (h : content.Spelled v)
    (decode : Decoder α) (room : Nat) :
    Decoder.option decode room (.ofJson v) = (decode room (.ofJson v)).map some := by
  cases h <;> rfl

theorem Carries.decoder {content : Content} {v : Json} (h : Carries name content v)
    (hdepth : v.depth < room) : choice name room (.ofJson v) = .ok (some content) := by
  obtain ⟨cs, ms, rfl, hcs, hcarrier, hms, hspelled⟩ := h
  have hinner := depth_said cs name
  have hinmost := depth_said ms "content"
  rw [hcarrier, depth] at hinner
  rw [depth] at hdepth
  have hcontent : Decoder.option Content.decoder (room - 1 - 1) (.ofJson (said ms "content")) =
      .ok (some content) := by
    rw [hspelled.option, hspelled.decoder (by omega)]
    rfl
  have hinside : Decoder.option (carrier "content") (room - 1) (.ofJson (said cs name)) =
      .ok (some (some content)) := by
    rw [hcarrier]
    change (carrier "content" (room - 1) (.ofJson (.obj ms))).map some = _
    rw [carrier, Decoder.record_single (by omega) hms hcontent rfl]
    rfl
  exact Decoder.record_single (by omega) hcs hinside rfl

section Tells

variable {name : String} {id model : Option String} {usage : Option Fields} {content : Content}
  {ms : List (String × Json)} {room : Nat}

/-- What the members say of a completion is read in this room. -/
structure Read (name : String) (id model : Option String) (usage : Option Fields)
    (content : Content) (ms : List (String × Json)) (room : Nat) : Prop where
  id : Decoder.option Decoder.string room (.ofJson (said ms "id")) = .ok id
  model : Decoder.option Decoder.string room (.ofJson (said ms "model")) = .ok model
  choices : Decoder.list (choice name) room (.ofJson (said ms "choices")) = .ok [some content]
  chosen : Fields.get? ms "choices" ≠ none
  usage : Decoder.option Decoder.fields room (.ofJson (said ms "usage")) = .ok usage

theorem Tells.read (h : Tells name id model usage content ms) (hdepth : depthMembers ms < room) :
    Read name id model usage content ms room := by
  obtain ⟨v, hsaid, hcarries⟩ := h.choice
  constructor
  case id => exact Decoder.option_string h.id
  case model => exact Decoder.option_string h.model
  case choices =>
    have hinner := depth_said ms "choices"
    rw [hsaid, depth] at hinner
    have hv := depth_item (List.mem_singleton_self v)
    rw [hsaid]
    exact Decoder.list_ofItems (by omega) (.cons (hcarries.decoder (by omega)) .nil)
  case chosen =>
    rw [get?_of_said hsaid nofun]
    exact nofun
  case usage => exact Decoder.option_fields h.usage ((depth_said ms "usage").trans_lt hdepth)

theorem Tells.body (h : Tells "message" id model usage content ms)
    (hdepth : (Json.obj ms).depth < room) :
    Body.decoder room (.ofJson (.obj ms)) = .ok ⟨id, model, [some content], usage⟩ := by
  rw [depth] at hdepth
  have hroom : 1 < room := by omega
  have hread : Read "message" id model usage content ms (room - 1) := h.read (by omega)
  obtain ⟨b, hb⟩ : ∃ b, Body.decoder room (.ofJson (.obj ms)) = .ok b := by
    refine Decoder.exists_record hroom h.distinct (by simp [Decoder.defaulted]) ?_
    simp only [List.forall_mem_cons]
    exact ⟨Decoder.takes_defaulted hread.id, Decoder.takes_defaulted hread.model,
      Decoder.takes_defaulted hread.choices, Decoder.takes_defaulted hread.usage, by simp⟩
  have hid : b.id = id := Decoder.record_field "id" Body.id hroom h.distinct hb hread.id
    (fun _ => rfl) rfl (fun _ _ => rfl) (by simp)
  have hmodel : b.model = model :=
    Decoder.record_field "model" Body.model hroom h.distinct hb hread.model
      (fun _ => rfl) rfl (fun _ _ => rfl) (by simp)
  have hchoices : b.choices = [some content] :=
    Decoder.record_field "choices" Body.choices hroom h.distinct hb hread.choices
      (fun hnone => absurd hnone hread.chosen) rfl (fun _ _ => rfl) (by simp)
  have husage : b.usage = usage :=
    Decoder.record_field "usage" Body.usage hroom h.distinct hb hread.usage
      (fun _ => rfl) rfl (fun _ _ => rfl) (by simp)
  rw [hb, ← hid, ← hmodel, ← hchoices, ← husage]

theorem Tells.chunk (h : Tells "delta" id model usage content ms) (herror : said ms "error" = .null)
    (hdepth : (Json.obj ms).depth < room) :
    Stream.Chunk.decoder room (.ofJson (.obj ms)) = .ok ⟨id, model, [some content], usage, none⟩ := by
  rw [depth] at hdepth
  have hroom : 1 < room := by omega
  have hread : Read "delta" id model usage content ms (room - 1) := h.read (by omega)
  have hsilent : Decoder.option Decoder.value (room - 1) (.ofJson (said ms "error")) = .ok none := by
    rw [herror]
    rfl
  obtain ⟨c, hc⟩ : ∃ c, Stream.Chunk.decoder room (.ofJson (.obj ms)) = .ok c := by
    refine Decoder.exists_record hroom h.distinct (by simp [Decoder.defaulted]) ?_
    simp only [List.forall_mem_cons]
    exact ⟨Decoder.takes_defaulted hread.id, Decoder.takes_defaulted hread.model,
      Decoder.takes_defaulted hread.choices, Decoder.takes_defaulted hread.usage,
      Decoder.takes_defaulted hsilent, by simp⟩
  have hid : c.id = id := Decoder.record_field "id" Stream.Chunk.id hroom h.distinct hc hread.id
    (fun _ => rfl) rfl (fun _ _ => rfl) (by simp)
  have hmodel : c.model = model :=
    Decoder.record_field "model" Stream.Chunk.model hroom h.distinct hc hread.model
      (fun _ => rfl) rfl (fun _ _ => rfl) (by simp)
  have hchoices : c.choices = [some content] :=
    Decoder.record_field "choices" Stream.Chunk.choices hroom h.distinct hc hread.choices
      (fun hnone => absurd hnone hread.chosen) rfl (fun _ _ => rfl) (by simp)
  have husage : c.usage = usage :=
    Decoder.record_field "usage" Stream.Chunk.usage hroom h.distinct hc hread.usage
      (fun _ => rfl) rfl (fun _ _ => rfl) (by simp)
  have hsound : c.error = none :=
    Decoder.record_field "error" Stream.Chunk.error hroom h.distinct hc hsilent
      (fun _ => rfl) rfl (fun _ _ => rfl) (by simp)
  rw [hc, ← hid, ← hmodel, ← hchoices, ← husage, ← hsound]

theorem parse_body {answer : String} {ms : List (String × Json)} (m : String)
    (h : Tells "message" id model usage (.text answer) ms) (hbody : Writes body (.obj ms))
    (hdepth : (Json.obj ms).depth < Decoder.fullRoom) :
    parse body m = .ok ⟨answer, (namedModel model).getD m, id.getD "", usage.getD []⟩ := by
  rw [parse, hbody.ofText, h.body hdepth]
  rfl

end Tells

end Completion

namespace Stream

open Completion

open Assembler (payload?)

/-- Events that tell of the pieces of an answer, one each, all under one id and model. If there is a
usage, one of them tells it. -/
inductive Streamed (id model : Option String) :
    Option Fields → List Content → List (List (String × Json)) → Prop
  | ended : Streamed id model none [] []
  | quiet (tells : Tells "delta" id model none piece ms) (sound : said ms "error" = .null)
      (rest : Streamed id model usage pieces events) :
      Streamed id model usage (piece :: pieces) (ms :: events)
  | telling (tells : Tells "delta" id model usage piece ms) (sound : said ms "error" = .null)
      (rest : Streamed id model none pieces events) :
      Streamed id model usage (piece :: pieces) (ms :: events)

/-- Lines that hold the data of events, a line each, with a blank line between two events. The sentinel may
end them. -/
inductive Spaced : List String → List String → Prop
  | ended : Spaced [] []
  | sentinel (done : payload? line = some "[DONE]") : Spaced [] (line :: lines)
  | idle (nothing : payload? line = none) (rest : Spaced texts lines) :
      Spaced texts (line :: lines)
  | event (data : payload? line = some text) (more : text ≠ "[DONE]")
      (blank : Batch.isBlank gap) (rest : Spaced texts lines) :
      Spaced (text :: texts) (line :: gap :: lines)
  | last (data : payload? line = some text) (more : text ≠ "[DONE]")
      (rest : Spaced [] lines) : Spaced [text] (line :: lines)

theorem payload?_data (text : String) : payload? ("data: " ++ text) = some (Text.trim text) := by
  have hline : ("data: " ++ text).toList = "data:".toList ++ (' ' :: text.toList) := by
    rw [String.toList_append]
    rfl
  have hskip : Text.trim (.ofList (' ' :: text.toList)) = Text.trim text := by
    rw [Text.trim, Text.trim, String.toList_ofList, Text.strip, List.dropWhile_cons_of_pos (by decide)]
    rfl
  rw [payload?, hline, Text.afterPrefix?, if_pos (List.isPrefixOf_iff_prefix.2 (List.prefix_append ..)),
    List.drop_left, Option.map_some, hskip]

theorem payload?_compact (ms : List (String × Json)) :
    payload? ("data: " ++ (Json.obj ms).compact) = some (Json.obj ms).compact := by
  have hbraces := Json.toList_compact_obj ms []
  rw [List.append_nil] at hbraces
  have htrim : Text.trim (Json.obj ms).compact = (Json.obj ms).compact := by
    rw [Text.trim, hbraces, Text.strip, List.dropWhile_cons_of_neg (by decide), Text.dropEndWhile,
      ← List.cons_append, List.reverse_append, List.reverse_singleton, List.singleton_append,
      List.dropWhile_cons_of_neg (by decide), ← List.singleton_append, List.reverse_append,
      List.reverse_reverse, List.reverse_singleton, List.cons_append, ← hbraces, String.ofList_toList]
  rw [payload?_data, htrim]

theorem compact_ne_sentinel (ms : List (String × Json)) : (Json.obj ms).compact ≠ "[DONE]" := by
  intro hsame
  have hbraces := Json.toList_compact_obj ms []
  rw [hsame] at hbraces
  cases hbraces

namespace Batch

theorem chunksAfter_spaced (pending : List String) (h : Spaced [] lines) :
    chunksAfter pending lines = (chunkOf? pending).toList := by
  generalize htexts : [] = texts at h
  induction h generalizing pending with
  | ended => exact chunksAfter_end pending
  | sentinel done => exact chunksAfter_done pending done
  | @idle line texts lines nothing rest ih =>
      cases hblank : isBlank line with
      | true =>
          rw [chunksAfter_blank pending hblank, ih [] htexts]
          simp [chunkOf?]
      | false => rw [chunksAfter_other pending hblank nothing, ih pending htexts]
  | event | last => cases htexts

theorem isBlank_of_data (h : payload? line = some text) : isBlank line = false := by
  by_contra hblank
  rw [payload?_of_blank (Bool.not_eq_false _ ▸ hblank)] at h
  cases h

theorem toList_chunkOf? (text : String) :
    (chunkOf? [text]).toList = [text].filterMap Chunk.ofText? := by
  rw [chunkOf?, if_neg (by simp), String.intercalate_singleton]
  cases h : Chunk.ofText? text <;> simp [h]

theorem chunks_spaced (h : Spaced texts lines) : chunks lines = texts.filterMap Chunk.ofText? := by
  rw [← chunksAfter_nil]
  induction h with
  | ended => exact chunksAfter_end []
  | sentinel done => exact chunksAfter_done [] done
  | @idle line texts lines nothing rest ih =>
      cases hblank : isBlank line with
      | true =>
          rw [chunksAfter_blank [] hblank, ih]
          rfl
      | false => rw [chunksAfter_other [] hblank nothing, ih]
  | @event line text gap texts lines data more blank rest ih =>
      rw [chunksAfter_data [] (isBlank_of_data data) data more, chunksAfter_blank _ blank, ih]
      rw [List.nil_append, toList_chunkOf?, ← List.filterMap_append, List.singleton_append]
  | last data more rest =>
      rw [chunksAfter_data [] (isBlank_of_data data) data more, chunksAfter_spaced _ rest]
      rw [List.nil_append, toList_chunkOf?]

end Batch

section Agreement

variable {id model : Option String} {usage later : Option Fields} {piece : Content}
  {pieces : List Content} {events : List (List (String × Json))} {cs : List Chunk}

/-- Chunks of one completion: what they all say, what they add to the answer, and the usage of one. -/
structure Agrees (id model : Option String) (usage : Option Fields) (pieces : List Content)
    (cs : List Chunk) : Prop where
  sound : ∀ c ∈ cs, c.error = none
  ids : ∀ c ∈ cs, c.id = id
  models : ∀ c ∈ cs, c.model = model
  texts : cs.map Chunk.text = pieces.map Content.plain
  usages : cs.filterMap (·.usage) = usage.toList

theorem Agrees.cons (h : Agrees id model later pieces cs) {told : Option Fields}
    (husage : told.toList ++ later.toList = usage.toList) :
    Agrees id model usage (piece :: pieces) (⟨id, model, [some piece], told, none⟩ :: cs) where
  sound := List.forall_mem_cons.2 ⟨rfl, h.sound⟩
  ids := List.forall_mem_cons.2 ⟨rfl, h.ids⟩
  models := List.forall_mem_cons.2 ⟨rfl, h.models⟩
  texts := by
    rw [List.map_cons, List.map_cons, h.texts]
    simp [Chunk.text]
  usages := by
    rw [← husage, ← h.usages]
    cases told <;> rfl

theorem Chunk.ofText?_event {ms : List (String × Json)} {text : String}
    (tells : Tells "delta" id model usage piece ms) (sound : said ms "error" = .null)
    (hwrites : Writes text (.obj ms)) (hdepth : (Json.obj ms).depth < Decoder.fullRoom) :
    Chunk.ofText? text = some ⟨id, model, [some piece], usage, none⟩ := by
  rw [Chunk.ofText?, hwrites.ofText, tells.chunk sound hdepth]
  rfl

theorem Streamed.agrees {texts : List String} (h : Streamed id model usage pieces events)
    (htexts : List.Forall₂ (fun text ms => Writes text (.obj ms)) texts events)
    (hdepth : ∀ ms ∈ events, (Json.obj ms).depth < Decoder.fullRoom) :
    Agrees id model usage pieces (texts.filterMap Chunk.ofText?) := by
  induction h generalizing texts with
  | ended =>
      cases htexts
      exact ⟨by simp, by simp, by simp, rfl, rfl⟩
  | quiet tells sound _ ih =>
      obtain ⟨hms, hevents⟩ := List.forall_mem_cons.1 hdepth
      cases htexts with
      | cons hwrites htexts =>
          rw [List.filterMap_cons_some (Chunk.ofText?_event tells sound hwrites hms)]
          exact (ih htexts hevents).cons rfl
  | telling tells sound _ ih =>
      obtain ⟨hms, hevents⟩ := List.forall_mem_cons.1 hdepth
      cases htexts with
      | cons hwrites htexts =>
          rw [List.filterMap_cons_some (Chunk.ofText?_event tells sound hwrites hms)]
          exact (ih htexts hevents).cons (List.append_nil _)

theorem lastOr_const (default : α) (told : Option α) {cs : List β} (hcs : cs ≠ []) :
    Batch.lastOr default (cs.filterMap fun _ => told) = told.getD default := by
  cases told with
  | none => simp [Batch.lastOr]
  | some a =>
      have hall (cs : List β) : Batch.lastOr a (cs.filterMap fun _ => some a) = a := by
        induction cs with
        | nil => rfl
        | cons c cs ih => exact (Batch.lastOr_cons a a _).trans ih
      obtain ⟨c, cs, rfl⟩ := List.exists_cons_of_ne_nil hcs
      exact (Batch.lastOr_cons default a _).trans (hall cs)

theorem find?_const (told : Option String) {cs : List β} (hcs : cs ≠ []) :
    ((cs.filterMap fun _ => told).find? (!·.isEmpty)).getD "" = told.getD "" := by
  cases told with
  | none => simp
  | some s =>
      obtain ⟨c, cs, rfl⟩ := List.exists_cons_of_ne_nil hcs
      by_cases hs : s = ""
      · subst hs
        rw [List.find?_eq_none.2]
        · rfl
        · simp
      · change ((s :: cs.filterMap fun _ => some s).find? _).getD "" = s
        rw [List.find?_cons_of_pos (by simpa using hs)]
        rfl

theorem lastOr_usage (usage : Option Fields) :
    Batch.lastOr [] (usage.toList.filter (!·.isEmpty)) = usage.getD [] := by
  cases usage with
  | none => rfl
  | some u => cases u <;> rfl

theorem Agrees.reply (h : Agrees id model usage pieces cs) (hpieces : pieces ≠ [])
    (requestedModel : String) :
    Batch.reply requestedModel (Batch.sound cs) =
      ⟨String.join (pieces.map Content.plain), (namedModel model).getD requestedModel, id.getD "",
        usage.getD []⟩ := by
  have hcs : cs ≠ [] := by
    rintro rfl
    exact hpieces (List.map_eq_nil_iff.1 h.texts.symm)
  have hsound : Batch.sound cs = cs :=
    List.takeWhile_eq_self_iff.2 fun c hc => by rw [h.sound c hc]; rfl
  have hids : cs.filterMap (·.id) = cs.filterMap fun _ => id :=
    List.filterMap_congr fun c hc => h.ids c hc
  have hmodels : (cs.filterMap fun c => namedModel c.model) = cs.filterMap fun _ => namedModel model :=
    List.filterMap_congr fun c hc => by rw [h.models c hc]
  rw [hsound, Batch.reply, h.texts, hids, hmodels, h.usages, lastOr_const _ _ hcs,
    find?_const _ hcs, lastOr_usage]

/-- A completion comes to the same reply sent at once or as a stream with an event for each piece of its
answer, as long as nothing in it nests too deep to be read. -/
theorem parse_eq_streamed (requestedModel : String) (maxTokens : Nat) {texts lines : List String}
    {body : String} {whole : List (String × Json)} (hpieces : pieces ≠ [])
    (hevents : Streamed id model usage pieces events)
    (htexts : List.Forall₂ (fun text ms => Writes text (.obj ms)) texts events)
    (hlines : Spaced texts lines)
    (hwhole : Tells "message" id model usage (.text (String.join (pieces.map Content.plain))) whole)
    (hbody : Writes body (.obj whole))
    (hdepth : ∀ ms ∈ whole :: events, (Json.obj ms).depth < Decoder.fullRoom) :
    parse body requestedModel =
      .ok ((Assembler.start requestedModel).readAll (paceOf maxTokens) lines).1.reply := by
  obtain ⟨hdeep, hshallow⟩ := List.forall_mem_cons.1 hdepth
  have hagrees := hevents.agrees htexts hshallow
  rw [Batch.readAll_reply requestedModel maxTokens lines, Batch.chunks_spaced hlines,
    hagrees.reply hpieces, parse_body requestedModel hwhole hbody hdeep]

def greeting : List Content :=
  [.text "Hel", .parts [⟨some "image_url", none⟩, ⟨some "text", some "lo"⟩]]

def greetingEvents : List (List (String × Json)) :=
  [[("id", .str "c-1"), ("model", .str "gpt-4o"),
      ("choices", .arr [.obj [("index", .ofNat 0), ("delta", .obj [("content", .str "Hel")])]])],
    [("usage", .obj [("total_tokens", .ofNat 3)]), ("id", .str "c-1"), ("model", .str "gpt-4o"),
      ("choices", .arr [.obj [("delta", .obj [("content", .arr [
        .obj [("type", .str "image_url"), ("image_url", .obj [("url", .str "data:")])],
        .obj [("type", .str "text"), ("text", .str "lo")]])])]])]]

def greetingBody : List (String × Json) :=
  [("id", .str "c-1"), ("model", .str "gpt-4o"),
    ("choices", .arr [.obj [("message", .obj [("content", .str "Hello")])]]),
    ("usage", .obj [("total_tokens", .ofNat 3)])]

theorem parse_eq_streamed_greeting :
    let lines := greetingEvents.flatMap fun ms => ["data: " ++ (Json.obj ms).compact, ""]
    let reply := ((Assembler.start "gpt").readAll (paceOf 800) lines).1.reply
    Completion.parse (Json.obj greetingBody).compact "gpt" = .ok reply ∧ reply.answer = "Hello" := by
  have hevents : Streamed (some "c-1") (some "gpt-4o") (some [("total_tokens", .ofNat 3)]) greeting
      greetingEvents := by
    refine .quiet ⟨by decide, rfl, rfl, rfl, _, rfl, ?_⟩ rfl
      (.telling ⟨by decide, rfl, rfl, rfl, _, rfl, ?_⟩ rfl .ended)
    · exact ⟨_, _, rfl, by decide, rfl, by decide, .text _⟩
    · refine ⟨_, _, rfl, by decide, rfl, by decide, .parts (.cons ?_ (.cons ?_ .nil))⟩
      · exact ⟨_, rfl, by decide, rfl, rfl⟩
      · exact ⟨_, rfl, by decide, rfl, rfl⟩
  have hthree : Json.Legible (.ofNat 3) := ⟨_, rfl, rfl⟩
  have hzero : Json.Legible (.ofNat 0) := ⟨_, rfl, rfl⟩
  have hlegible : Json.LegibleItems ((greetingBody :: greetingEvents).map .obj) := by
    simp [greetingBody, greetingEvents, Json.Legible, Json.LegibleItems, Json.LegibleMembers, hthree,
      hzero]
  have htexts : List.Forall₂ (fun text ms => Writes text (.obj ms))
      (greetingEvents.map fun ms => (Json.obj ms).compact) greetingEvents := by
    exact .cons (writes_compact hlegible.2.1) (.cons (writes_compact hlegible.2.2.1) .nil)
  have hlines : Spaced (greetingEvents.map fun ms => (Json.obj ms).compact)
      (greetingEvents.flatMap fun ms => ["data: " ++ (Json.obj ms).compact, ""]) := by
    exact .event (payload?_compact _) (compact_ne_sentinel _) (by decide)
      (.event (payload?_compact _) (compact_ne_sentinel _) (by decide) .ended)
  have hwhole : Tells "message" (some "c-1") (some "gpt-4o") (some [("total_tokens", .ofNat 3)])
      (.text (String.join (greeting.map Content.plain))) greetingBody := by
    refine ⟨by decide, rfl, rfl, rfl, _, rfl, _, _, rfl, by decide, rfl, by decide, ?_⟩
    exact .text "Hello"
  have hbody : Writes (Json.obj greetingBody).compact (.obj greetingBody) :=
    writes_compact hlegible.1
  have hsame := parse_eq_streamed "gpt" 800 (by decide) hevents htexts hlines hwhole hbody (by decide)
  refine ⟨hsame, ?_⟩
  rw [parse_body "gpt" hwhole hbody (by decide)] at hsame
  rw [← Except.ok.inj hsame]
  decide

def nested : Nat → Json
  | 0 => .arr []
  | n + 1 => .arr [nested n]

theorem legible_nested (n : Nat) : (nested n).Legible := by
  induction n with
  | zero => trivial
  | succ n ih => exact ⟨ih, trivial⟩

/-- A text with an image beside it that nests too deep to be read. -/
def deepEvent : List (String × Json) :=
  [("choices", .arr [.obj [("delta", .obj [("content", .arr [
    .obj [("type", .str "text"), ("text", .str "hello")],
    .obj [("type", .str "image_url"), ("image_url", nested 129)]])])]])]

def helloBody : List (String × Json) :=
  [("choices", .arr [.obj [("message", .obj [("content", .str "hello")])]])]

/-- An event that cannot be read is passed over, and its text is missing from the streamed reply. -/
theorem deepEvent_unread :
    let pieces := [Content.parts [⟨some "text", some "hello"⟩, ⟨some "image_url", none⟩]]
    let text := (Json.obj deepEvent).compact
    let lines := ["data: " ++ text, "", "data: [DONE]"]
    let body := (Json.obj helloBody).compact
    Streamed none none none pieces [deepEvent] ∧ Writes text (.obj deepEvent) ∧
      Spaced [text] lines ∧
      Tells "message" none none none (.text (String.join (pieces.map Content.plain))) helloBody ∧
      Writes body (.obj helloBody) ∧
      Completion.parse body "gpt-4o" ≠
        .ok ((Assembler.start "gpt-4o").readAll (paceOf 800) lines).1.reply := by
  intro pieces text lines body
  have hwhole : Tells "message" none none none (.text (String.join (pieces.map Content.plain)))
      helloBody := by
    refine ⟨by decide, rfl, rfl, rfl, _, rfl, _, _, rfl, by decide, rfl, by decide, ?_⟩
    exact .text "hello"
  have hbody : Writes body (.obj helloBody) := writes_compact (by simp [helloBody, Json.Legible,
    Json.LegibleItems, Json.LegibleMembers])
  have hwrites : Writes text (.obj deepEvent) := writes_compact (by simp [deepEvent, Json.Legible,
    Json.LegibleItems, Json.LegibleMembers, legible_nested])
  have hspaced : Spaced [text] lines :=
    .event (payload?_compact _) (compact_ne_sentinel _) (by decide)
      (.sentinel (by decide +kernel))
  refine ⟨?_, hwrites, hspaced, hwhole, hbody, ?_⟩
  · refine .quiet ⟨by decide, rfl, rfl, rfl, _, rfl, ?_⟩ rfl .ended
    refine ⟨_, _, rfl, by decide, rfl, by decide, .parts (.cons ?_ (.cons ?_ .nil))⟩
    · exact ⟨_, rfl, by decide, rfl, rfl⟩
    · exact ⟨_, rfl, by decide, rfl, rfl⟩
  · have hunread : Chunk.ofText? text = none := by
      rw [Chunk.ofText?, hwrites.ofText]
      exact Option.isNone_iff_eq_none.1 (by decide +kernel)
    rw [Completion.parse_body "gpt-4o" hwhole hbody (by decide),
      Batch.readAll_reply "gpt-4o" 800 lines, Batch.chunks_spaced hspaced,
      List.filterMap_cons_none hunread]
    intro hsame
    exact absurd (congrArg Reply.answer (Except.ok.inj hsame)) (by decide)

end Agreement

end Stream

end Advisor

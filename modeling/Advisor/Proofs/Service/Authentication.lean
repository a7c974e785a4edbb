import Advisor.Proofs.Consultation.Reissue
import Advisor.Proofs.Request.Acceptance
import Advisor.Proofs.Service.Admission

/-!
The key of a request opens the models to it and does nothing else.
-/

namespace Advisor

open Dialogue Consultation

def Json.amend (name : String) (change : Json → Json) : Json → Json
  | .obj members => .obj (members.map fun m => if m.1 = name then (m.1, change m.2) else m)
  | v => v

namespace ChatRequest

def withKey (key : String) (r : ChatRequest) : ChatRequest := { r with apiKey := key }

variable {key key' : String}

theorem required_eq_pure {name value : String} (h : value ≠ "") : required name value = pure value :=
  (required_of_ne h).trans rfl

theorem address_withKey (key : String) (r : ChatRequest) (config : Config) :
    (r.withKey key).address config = r.address config := by
  unfold address withKey
  simp only

theorem toTurn_withKey (key : String) (r : ChatRequest) (config : Config) (requestId apiKey model
    userMessage baseUrl : String) (temperature : Number.Binary) (maxTokens : Nat) :
    (r.withKey key).toTurn config requestId apiKey model userMessage baseUrl temperature maxTokens =
      r.toTurn config requestId apiKey model userMessage baseUrl temperature maxTokens := by
  simp only [toTurn, withKey]

theorem validate_withKey (hkey : Text.trim key ≠ "") (r : ChatRequest) (config : Config)
    (requestId : String) :
    (r.withKey key).validate config requestId = do
      let model ← required "model" (Text.trim r.model)
      let userMessage ← required "user_message"
        (Text.truncate (Text.trim r.userMessage) History.maxMessageRunes)
      let baseUrl ← r.address config
      let temperature ← temperatureOf r.temperature
      let maxTokens ← maxTokensOf r.maxTokens
      return r.toTurn config requestId (Text.trim key) model userMessage baseUrl temperature
        maxTokens := by
  have hrequired : required "api_key" (Text.trim (r.withKey key).apiKey) = pure (Text.trim key) :=
    required_eq_pure hkey
  rw [validate_eq, hrequired, pure_bind]
  simp only [address_withKey, toTurn_withKey]
  simp only [withKey]

theorem toTurn_under (ticket : Ticket) (r : ChatRequest) (config : Config) (requestId apiKey model
    userMessage baseUrl : String) (temperature : Number.Binary) (maxTokens : Nat) :
    (r.toTurn config requestId apiKey model userMessage baseUrl temperature maxTokens).under ticket =
      r.toTurn config ticket.requestId ticket.apiKey model userMessage baseUrl temperature
        maxTokens := by
  simp only [toTurn, Turn.under]

theorem validate_under (hkey : Text.trim key ≠ "") (hkey' : Text.trim key' ≠ "") (r : ChatRequest)
    (config : Config) (requestId requestId' : String) :
    (r.withKey key').validate config requestId' =
      Turn.under ⟨Text.trim key', requestId'⟩ <$> (r.withKey key).validate config requestId := by
  rw [validate_withKey hkey, validate_withKey hkey']
  simp only [map_bind, map_pure, toTurn_under]

end ChatRequest

namespace Service

/-- The answer to a chat, for a request of another name. -/
def renamed (requestId : String) : Json → Json :=
  Json.amend "pipeline" (Json.amend "request_id" fun _ => .str requestId)

def renamedLine (requestId : String) : Json → Json :=
  Json.amend "result" (renamed requestId)

def Response.mapBody (change : Json → Json) (r : Response) : Response :=
  { r with body := r.body.map change }

theorem Response.mapBody_status (change : Json → Json) (r : Response) :
    (r.mapBody change).status = r.status := rfl

variable {ticket : Ticket}

theorem toJson_under (response : ChatResponse) :
    (response.under ticket).toJson = renamed ticket.requestId response.toJson := by
  simp [ChatResponse.toJson, ChatResponse.under, Trail.toJson, Trail.under, renamed, Json.amend]

theorem eventJson_under (event : Stream.Event) :
    (event.under ticket).toJson = renamedLine ticket.requestId event.toJson := by
  cases event with
  | result response pct =>
      simp [Stream.Event.toJson, Stream.Event.under, renamedLine, Json.amend, toJson_under]
  | _ => simp [Stream.Event.toJson, Stream.Event.under, renamedLine, Json.amend]

theorem failure_amended {name : String} (hname : "error" ≠ name) (change : Json → Json)
    (e : Failure) : (Response.failure e).mapBody (Json.amend name change) = .failure e := by
  simp [Response.failure, Response.json, Response.mapBody, Json.amend, hname]

theorem ofResult_under {result result' : Except Failure ChatResponse}
    (h : SameOutcome (SameUnder ticket) result result') :
    Response.ofResult result' = (Response.ofResult result).mapBody (renamed ticket.requestId) := by
  cases h with
  | ok h =>
      rw [h, Response.ofResult, toJson_under]
      rfl
  | error e => exact (failure_amended (by decide) _ e).symm

/-- Two requests with a key each have been served alike: with the same response but for the name in it,
after the same acts but for the key of the calls. -/
structure ServedAlike (key : String) (ticket : Ticket) (rename : Json → Json) (R : σ → τ → Prop)
    (served : Response × Scene σ) (served' : Response × Scene τ) : Prop where
  response : served'.1 = served.1.mapBody rename
  acts : served'.2.acts = served.2.acts.map (Act.under ticket)
  carries : ∀ a ∈ served.2.acts, a.Carries key
  carries' : ∀ a ∈ served'.2.acts, a.Carries ticket.apiKey
  abreast : Abreast True R served.2 served'.2

variable {key : String} {R : σ → τ → Prop}

theorem served_of_ranAlike {Q : α → β → Prop} {x : Option α × Scene σ} {x' : Option β × Scene τ}
    (h : RanAlike key ticket Q R [] [] x x') {response response' : Response}
    (hresponse : response' = response.mapBody rename) :
    ServedAlike key ticket rename R (response, x.2) (response', x'.2) := by
  obtain ⟨acts, hacts, hacts', hcarries⟩ := h.acts
  rw [List.nil_append] at hacts hacts'
  refine ⟨hresponse, ?_, ?_, ?_, h.abreast⟩
  · rw [hacts, hacts']
  · rw [hacts]
    exact hcarries
  · rw [hacts']
    intro a ha
    obtain ⟨a, _, rfl⟩ := List.mem_map.1 ha
    exact a.carries_under ticket

theorem heard_under {acts : List Act} :
    (acts.map (Act.under ticket)).filterMap Act.heard? =
      (acts.filterMap Act.heard?).map (·.under ticket) := by
  rw [List.filterMap_map, List.map_filterMap]
  exact congrArg (acts.filterMap ·) (funext fun a => a.heard?_under ticket)

variable {p : Practice} {timeoutMs : Nat} {w : World σ} {w' : World τ}

theorem carryOut_answer_under (hp : p.planner = .standard timeoutMs)
    (hw : Indifferent ticket w w' R) {s : Scene σ} {t : Scene τ} (hs : Abreast True R s t)
    (hacts : s.acts = []) (hacts' : t.acts = []) (turn : Turn) :
    ServedAlike turn.apiKey ticket (renamed ticket.requestId) R
      (Task.carryOut p w s (.answer turn)) (Task.carryOut p w' t (.answer (turn.under ticket))) := by
  have hreissued : Attempt.Reissued turn.apiKey ticket (SameUnder ticket) (answer p false turn)
      (answer p false (turn.under ticket)) := reissued_answer p timeoutMs false hp rfl
  have hrun := hreissued.run hw hs
  rw [hacts, hacts'] at hrun
  refine served_of_ranAlike hrun ?_
  have hresult := hrun.result
  generalize ((answer p false turn).run.run w s).1 = result at hresult
  generalize ((answer p false (turn.under ticket)).run.run w' t).1 = result' at hresult
  cases hresult with
  | none => exact (failure_amended (by decide) _ .cancelled).symm
  | some h => exact ofResult_under h

theorem carryOut_stream_under (hp : p.planner = .standard timeoutMs)
    (hw : Indifferent ticket w w' R) {s : Scene σ} {t : Scene τ} (hs : Abreast True R s t)
    (hacts : s.acts = []) (hacts' : t.acts = []) (turn : Turn) :
    ServedAlike turn.apiKey ticket (renamedLine ticket.requestId) R
      (Task.carryOut p w s (.stream turn)) (Task.carryOut p w' t (.stream (turn.under ticket))) := by
  have hreissued : Attempt.Reissued turn.apiKey ticket Eq (stream p turn)
      (stream p (turn.under ticket)) := reissued_stream p timeoutMs hp rfl
  have hrun := hreissued.run hw hs
  rw [hacts, hacts'] at hrun
  refine served_of_ranAlike hrun ?_
  obtain ⟨acts, hdone, hdone', _⟩ := hrun.acts
  rw [List.nil_append] at hdone hdone'
  simp only [Response.events, Response.mapBody, Scene.heard, hdone, hdone', heard_under,
    List.map_map]
  exact congrArg (Response.mk 200 _ ·) (List.map_congr_left fun event _ => eventJson_under event)

theorem readTurn_under {said : Except Failure ChatRequest} {r r' : Request} {key' : String}
    (hkey : Text.trim key ≠ "") (hkey' : Text.trim key' ≠ "")
    (hr : readChat r = ChatRequest.withKey key <$> said)
    (hr' : readChat r' = ChatRequest.withKey key' <$> said) (config : Config)
    (requestId requestId' : String) :
    readTurn config requestId' r' =
      Turn.under ⟨Text.trim key', requestId'⟩ <$> readTurn config requestId r := by
  unfold readTurn
  rw [hr, hr']
  simp only [bind_map_left, map_bind, ChatRequest.validate_under hkey hkey' _ config requestId]

theorem readTurn_key {said : Except Failure ChatRequest} {r : Request} (hkey : Text.trim key ≠ "")
    (hr : readChat r = ChatRequest.withKey key <$> said) {config : Config}
    (h : readTurn config requestId r = .ok turn) : turn.apiKey = Text.trim key := by
  have hunder := readTurn_under hkey hkey hr hr config requestId requestId
  rw [h] at hunder
  exact congrArg Turn.apiKey (Except.ok.inj hunder)

/-- The key of a request opens the models to it and does nothing else. Of two requests that say the same but
for their keys, both of them given, the second is served as the first is: what is said to its client differs
in the name of the request alone, and what is asked in the keys of the models, each its own. -/
theorem key_only_authenticates (p : Practice) (timeoutMs : Nat) (config : Config) {key key' : String}
    (hkey : Text.trim key ≠ "") (hkey' : Text.trim key' ≠ "") {said : Except Failure ChatRequest}
    {r r' : Request} (hr : readChat r = ChatRequest.withKey key <$> said)
    (hr' : readChat r' = ChatRequest.withKey key' <$> said) (requestId requestId' : String)
    {w : World σ} {w' : World τ} (hw : Indifferent ⟨Text.trim key', requestId'⟩ w w' R) {s : Scene σ}
    {t : Scene τ} (hs : Abreast True R s t) :
    ServedAlike (Text.trim key) ⟨Text.trim key', requestId'⟩ (renamed requestId') R
      (serve { p with planner := .standard timeoutMs } config requestId w s r.toChat)
      (serve { p with planner := .standard timeoutMs } config requestId' w' t r'.toChat) ∧
    ServedAlike (Text.trim key) ⟨Text.trim key', requestId'⟩ (renamedLine requestId') R
      (serve { p with planner := .standard timeoutMs } config requestId w s r.toStream)
      (serve { p with planner := .standard timeoutMs } config requestId' w' t r'.toStream) := by
  have hunder := readTurn_under hkey hkey' hr hr' config requestId requestId'
  have hs' : Abreast True R { s with acts := [] } { t with acts := [] } := ⟨hs.outside, hs.memory⟩
  cases hturn : readTurn config requestId r with
  | error e =>
      rw [hturn] at hunder
      obtain ⟨hchat, hstream⟩ := serve_refused
        (p := { p with planner := .standard timeoutMs }) (w := w) (s := s) hturn
      obtain ⟨hchat', hstream'⟩ := serve_refused
        (p := { p with planner := .standard timeoutMs }) (w := w') (s := t) hunder
      rw [hchat, hstream, hchat', hstream']
      exact ⟨⟨(failure_amended (by decide) _ e).symm, rfl, by simp, by simp, hs'⟩,
        (failure_amended (by decide) _ e).symm, rfl, by simp, by simp, hs'⟩
  | ok turn =>
      rw [hturn] at hunder
      rw [← readTurn_key hkey hr hturn]
      unfold serve
      rw [taskFor_toChat, taskFor_toStream, taskFor_toChat, taskFor_toStream]
      unfold chatTask
      rw [hturn, hunder]
      exact ⟨carryOut_answer_under rfl hw hs' rfl rfl turn,
        carryOut_stream_under rfl hw hs' rfl rfl turn⟩

theorem indifferent_echoing (ticket : Ticket) :
    Indifferent ticket echoing echoing fun _ _ => True where
  completes _ _ := ⟨rfl, trivial⟩
  streams _ _ := ⟨rfl, trivial⟩
  answers _ _ _ := ⟨rfl, trivial⟩
  waits _ _ := .some trivial
  hears _ _ := .some ⟨rfl, trivial⟩
  today _ := rfl
  instant _ := rfl

def keyedMembers (key : String) : Json.Fields :=
  [("api_key", .str key), ("model", .str "model"), ("user_message", .str "hi")]

def keyed (key : String) : Request where
  method := "POST"
  path := "/station/ai/chat"
  contentType := some "application/json"
  body := Json.compact (.obj (keyedMembers key))

theorem readChat_keyed {key : String} (hlimit : (keyed key).body.size ≤ maxBodyBytes) :
    readChat (keyed key) = ChatRequest.withKey key <$>
      .ok { ChatRequest.blank with model := "model", userMessage := "hi" } := by
  have htype : isJson (some "application/json") = true := by decide +kernel
  have hreads := Json.reads_compact (.obj (keyedMembers key)) ⟨trivial, trivial, trivial, trivial⟩
    (Json.Document.follows_nil [])
  rw [List.append_nil] at hreads
  have hread : Json.Document.read (keyed key).body.text.toList =
      (Json.Document.ofJson (.obj (keyedMembers key)), some []) := by
    rw [keyed, Body.text_ofText]
    exact Json.Document.read_eq_some.2 hreads
  unfold readChat
  rw [show (keyed key).contentType = some "application/json" from rfl, htype, if_neg (by simp),
    if_neg (Nat.not_lt.2 hlimit)]
  unfold Json.Decoder.ofPrefix
  rw [hread]
  rfl

theorem plain_standard :
    { Practice.plain with planner := .standard Timeouts.default.planner } = Practice.plain := rfl

theorem keys_served_alike :
    Text.trim "one" ≠ "" ∧ Text.trim " two " ≠ "" ∧
    readChat (keyed "one") = ChatRequest.withKey "one" <$>
      .ok { ChatRequest.blank with model := "model", userMessage := "hi" } ∧
    readChat (keyed " two ") = ChatRequest.withKey " two " <$>
      .ok { ChatRequest.blank with model := "model", userMessage := "hi" } ∧
    Indifferent ⟨Text.trim " two ", "second"⟩ echoing echoing (fun _ _ => True) ∧
    (answered (keyed "one").toChat).1.status = 200 ∧
    (serve .plain .default "second" echoing ⟨(), .empty, []⟩ (keyed " two ").toChat).1.status = 200 ∧
    ∀ a ∈ (serve .plain .default "second" echoing ⟨(), .empty, []⟩ (keyed " two ").toChat).2.acts,
      a.Carries (Text.trim " two ") := by
  have hkey : Text.trim "one" ≠ "" := by decide +kernel
  have hkey' : Text.trim " two " ≠ "" := by decide +kernel
  have hlimit : (keyed "one").body.size ≤ maxBodyBytes := by decide +kernel
  have hlimit' : (keyed " two ").body.size ≤ maxBodyBytes := by decide +kernel
  have hw := indifferent_echoing ⟨Text.trim " two ", "second"⟩
  have hone : (answered (keyed "one").toChat).1.status = 200 := by decide +kernel
  obtain ⟨hchat, _⟩ := key_only_authenticates .plain Timeouts.default.planner .default hkey hkey'
    (readChat_keyed hlimit) (readChat_keyed hlimit') "request" "second" hw (s := ⟨(), .empty, []⟩)
    (t := ⟨(), .empty, []⟩) ⟨trivial, fun _ => rfl⟩
  rw [plain_standard] at hchat
  refine ⟨hkey, hkey', readChat_keyed hlimit, readChat_keyed hlimit', hw, hone, ?_, hchat.carries'⟩
  rw [hchat.response, Response.mapBody_status, ← answered]
  exact hone

end Service

end Advisor

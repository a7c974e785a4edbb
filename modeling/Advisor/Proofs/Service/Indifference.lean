import Advisor.Proofs.Consultation.Acquaintance
import Advisor.Proofs.Json.RoundTrip
import Advisor.Proofs.Prompt.Bounds
import Advisor.Proofs.Request.Disregard
import Advisor.Service.Endpoint

/-!
The service takes nothing from a client that it says of its account, and tells a model only what it has
looked up itself.
-/

namespace Advisor.Json

/-! How much room a value takes at least when it is written. -/

theorem length_le_utf8ByteSize (s : String) : s.length ≤ s.utf8ByteSize := by
  have hofList (cs : List Char) : cs.length ≤ (String.ofList cs).utf8ByteSize := by
    induction cs with
    | nil => exact Nat.zero_le _
    | cons c cs ih =>
        have hc := c.utf8Size_pos
        rw [← List.singleton_append, String.ofList_append, String.utf8ByteSize_append,
          ← String.singleton_eq_ofList, String.utf8ByteSize_singleton, List.length_append,
          List.length_singleton]
        omega
  have hs := hofList s.toList
  rwa [String.length_toList, String.ofList_toList] at hs

theorem length_le_intercalate (sep : String) {part : String} {parts : List String}
    (h : part ∈ parts) : part.length ≤ (sep.intercalate parts).length := by
  induction parts with
  | nil => cases h
  | cons first rest ih =>
      cases rest with
      | nil =>
          obtain rfl := List.mem_singleton.1 h
          rw [String.intercalate_singleton]
      | cons second rest =>
          rw [String.intercalate_cons_cons, String.length_append, String.length_append]
          rcases List.mem_cons.1 h with rfl | h
          · omega
          · have hrest := ih h
            omega

theorem escape_ne_nil (c : Char) : escape c ≠ [] := by
  unfold escape
  split
  all_goals first | (split <;> simp) | simp

theorem length_le_quote (s : String) : s.length ≤ (quote s).length := by
  have hescaped (cs : List Char) : cs.length ≤ (cs.flatMap escape).length := by
    induction cs with
    | nil => exact Nat.le_refl _
    | cons c cs ih =>
        have hc := List.length_pos_iff.2 (escape_ne_nil c)
        simp only [List.flatMap_cons, List.length_append, List.length_cons]
        omega
  have hs := hescaped s.toList
  rw [quote, String.length_ofList, ← String.length_toList]
  simp only [List.length_append, List.length_cons]
  omega

theorem length_le_compact {key : String} {v : Json} {members : List (String × Json)}
    (h : (key, v) ∈ members) : (compact v).length ≤ (compact (.obj members)).length := by
  have hmem : quote key ++ ":" ++ compact v ∈ compactMembers members := by
    induction members with
    | nil => cases h
    | cons m ms ih =>
        rcases List.mem_cons.1 h with rfl | h
        · exact List.mem_cons_self ..
        · exact List.mem_cons_of_mem _ (ih h)
  have hpart := length_le_intercalate "," hmem
  rw [compact]
  simp only [String.length_append] at hpart ⊢
  omega

end Advisor.Json

namespace Advisor.Service

open Json Json.Decoder Json.Document Consultation

theorem readChat_same {r : Request} {body : Body}
    (hsame : ChatRequest.SameBody r.body.text body.text) (hlimit : r.body.size ≤ maxBodyBytes)
    (hlimit' : body.size ≤ maxBodyBytes) :
    readChat { r with body := body } = readChat r := by
  unfold readChat
  rw [if_neg (Nat.not_lt.2 hlimit), if_neg (Nat.not_lt.2 hlimit'), ChatRequest.ofPrefix_same hsame]

theorem taskFor_same (config : Config) (requestId : String) {r : Request} {body : Body}
    (hsame : ChatRequest.SameBody r.body.text body.text) (hlimit : r.body.size ≤ maxBodyBytes)
    (hlimit' : body.size ≤ maxBodyBytes) :
    taskFor config requestId { r with body := body } = taskFor config requestId r := by
  unfold taskFor chatTask readTurn
  rw [readChat_same hsame hlimit hlimit']

theorem readTurn_account {r : Request} (h : readTurn config requestId r = .ok turn) :
    turn.context.account = .empty := by
  obtain ⟨chat, hchat, hvalid⟩ := exists_of_bind_ok h
  unfold readChat at hchat
  split at hchat
  · cases hchat
  split at hchat
  · cases hchat
  split at hchat
  · rename_i hread
    cases hchat
    rw [(ChatRequest.validate_ok hvalid).2]
    exact ChatRequest.decoder_account hread
  · cases hchat

/-- Neither the answer to a request nor anything that is done for it depends on what the client says of its
account. The turn that a request asks for begins with none, and in every run of it the scan is checked, and
a model prompted, with what the run has looked up itself, or with nothing where the plan does not concern
the account. -/
theorem account_never_from_client (w : World σ) (p : Practice) :
    (∀ config requestId (s : Scene σ) (r : Request) body,
      ChatRequest.SameBody r.body.text body.text → r.body.size ≤ maxBodyBytes →
      body.size ≤ maxBodyBytes →
      serve p config requestId w s { r with body := body } = serve p config requestId w s r) ∧
    ∀ config requestId (r : Request) turn, readTurn config requestId r = .ok turn →
      turn.context.account = .empty ∧
      (∀ listening (s : Scene σ), ∃ acts,
        ((answer p listening turn).run.run w s).2.acts = s.acts ++ acts ∧
        Shown w p listening turn s acts ((answer p listening turn).run.run w s).1) ∧
      ∀ s : Scene σ, ∃ acts told result,
        ((stream p turn).run.run w s).2.acts = s.acts ++ (acts ++ told) ∧
        Shown w p true turn s acts result ∧
        ∀ a ∈ told, ∃ event heard, result.bind lastEvent? = some event ∧ a = .sent event heard := by
  refine ⟨fun config requestId s r body hsame hlimit hlimit' => ?_, fun _ _ _ turn hturn =>
    ⟨readTurn_account hturn, fun listening => answer_shown w p listening turn, stream_shown w p turn⟩⟩
  unfold serve
  rw [taskFor_same config requestId hsame hlimit hlimit']

def chatMembers (context : Fields) : Fields :=
  [("api_key", .str "key"), ("model", .str "model"), ("user_message", .str "hi"),
    ("context", .obj context)]

def chatIn (context : Fields) : Request where
  method := "POST"
  path := "/station/ai/chat"
  contentType := some "application/json"
  body := compact (.obj (chatMembers context))

theorem chatIn_same {context context' : Fields} (h : LegibleMembers context)
    (h' : LegibleMembers context')
    (hsame : without "runtime" (ofMembers context) = without "runtime" (ofMembers context')) :
    ChatRequest.SameBody (chatIn context).body.text (chatIn context').body.text := by
  have hreads {context : Fields} (h : LegibleMembers context) :=
    reads_compact (.obj (chatMembers context)) ⟨trivial, trivial, trivial, h, trivial⟩
      (follows_nil [])
  simp only [List.append_nil] at hreads
  simp only [chatIn, Body.text_ofText]
  refine ⟨_, _, [], [], hreads h, hreads h', ?_⟩
  exact .cons (.same _) (.cons (.same _) (.cons (.same _) (.cons (.context hsame) .nil)))

def scanned : Fields := [("tab_id", .str "scanner")]

def spoofed : Json := .obj [("available", .bool true), ("account_id", .str "spoofed")]

def echoing : World Unit := World.replying (fun _ => echo) []

def answered (r : Request) : Response × Scene Unit :=
  serve .plain .default "request" echoing ⟨(), .empty, []⟩ r

theorem answered_scanned : (answered (chatIn scanned)).1.status = 200 := by decide +kernel

theorem account_never_from_client_spoofed :
    ChatRequest.SameBody (chatIn scanned).body.text
        (chatIn (("runtime", spoofed) :: scanned)).body.text ∧
      (chatIn scanned).body ≠ (chatIn (("runtime", spoofed) :: scanned)).body ∧
      (chatIn scanned).body.size ≤ maxBodyBytes ∧
      (chatIn (("runtime", spoofed) :: scanned)).body.size ≤ maxBodyBytes ∧
      (answered (chatIn scanned)).1.status = 200 ∧
      answered (chatIn (("runtime", spoofed) :: scanned)) = answered (chatIn scanned) ∧
      ∃ turn, readTurn .default "request" (chatIn (("runtime", spoofed) :: scanned)) = .ok turn ∧
        turn.context.account = .empty := by
  have hsame : ChatRequest.SameBody (chatIn scanned).body.text
      (chatIn (("runtime", spoofed) :: scanned)).body.text :=
    chatIn_same ⟨trivial, trivial⟩ ⟨⟨trivial, trivial, trivial⟩, trivial, trivial⟩ rfl
  have hlimit : (chatIn scanned).body.size ≤ maxBodyBytes := by decide +kernel
  have hlimit' : (chatIn (("runtime", spoofed) :: scanned)).body.size ≤ maxBodyBytes := by
    decide +kernel
  have htaken : (readTurn .default "request"
      (chatIn (("runtime", spoofed) :: scanned))).toOption.isSome := by decide +kernel
  obtain ⟨hserved, hlearnt⟩ := account_never_from_client echoing .plain
  refine ⟨hsame, by decide +kernel, hlimit, hlimit', answered_scanned, ?_, ?_⟩
  · exact hserved .default "request" ⟨(), .empty, []⟩ (chatIn scanned) _ hsame hlimit hlimit'
  · cases hturn : readTurn .default "request" (chatIn (("runtime", spoofed) :: scanned)) with
    | ok turn => exact ⟨turn, rfl, (hlearnt _ _ _ turn hturn).1⟩
    | error e =>
        rw [hturn] at htaken
        cases htaken

theorem readChat_long {r : Request} (htype : isJson r.contentType)
    (hlong : maxBodyBytes < r.body.size) :
    readChat r =
      .error (.validation "Failed to buffer the request body: length limit exceeded") := by
  rw [readChat, if_neg (by simp [htype]), if_pos hlong]

theorem taskFor_chat (config : Config) (requestId : String) {r : Request}
    (hmethod : r.method = "POST") (hpath : Route.ofPath? r.path = some .chat) :
    taskFor config requestId r = chatTask config requestId r .answer := by
  unfold taskFor
  rw [if_neg (by simp [hmethod]), hpath, hmethod]
  rfl

theorem length_le_chatIn {text : String} {context : Fields} (h : (key, .str text) ∈ context) :
    text.length ≤ (chatIn context).body.size := by
  have hcontext : ("context", Json.obj context) ∈ chatMembers context := by simp [chatMembers]
  rw [chatIn, Body.size_ofText]
  calc text.length
    _ ≤ (compact (.str text)).length := by
      rw [compact]
      exact length_le_quote text
    _ ≤ (compact (.obj context)).length := length_le_compact h
    _ ≤ (compact (.obj (chatMembers context))).length := length_le_compact hcontext
    _ ≤ (compact (.obj (chatMembers context))).utf8ByteSize := length_le_utf8ByteSize _

def endless : String := .ofList (List.replicate (maxBodyBytes + 1) 'a')

/-- What a client says of its account is not read, but it is counted. -/
theorem long_account_refused :
    ChatRequest.SameBody (chatIn scanned).body.text
        (chatIn (("runtime", .str endless) :: scanned)).body.text ∧
      (answered (chatIn scanned)).1.status = 200 ∧
      (answered (chatIn (("runtime", .str endless) :: scanned))).1.status = 400 := by
  have hsame : ChatRequest.SameBody (chatIn scanned).body.text
      (chatIn (("runtime", .str endless) :: scanned)).body.text :=
    chatIn_same ⟨trivial, trivial⟩ ⟨trivial, trivial, trivial⟩ rfl
  have hlong : maxBodyBytes < (chatIn (("runtime", .str endless) :: scanned)).body.size := by
    have htext : endless.length ≤ (chatIn (("runtime", .str endless) :: scanned)).body.size :=
      length_le_chatIn (List.mem_cons_self ..)
    rwa [endless, String.length_ofList, List.length_replicate] at htext
  have hpath : Route.ofPath? "/station/ai/chat" = some .chat := by decide +kernel
  refine ⟨hsame, answered_scanned, ?_⟩
  rw [answered, serve, taskFor_chat _ _ rfl hpath, chatTask, readTurn,
    readChat_long (by decide +kernel) hlong]
  rfl

end Advisor.Service

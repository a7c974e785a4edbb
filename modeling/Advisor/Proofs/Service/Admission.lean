import Advisor.Proofs.Consultation.Stages
import Advisor.Proofs.Json.OneLine
import Advisor.Proofs.Request.Parts
import Advisor.Proofs.Service.Indifference
import Advisor.Proofs.Text.Encoding
import Advisor.Remote.Model
import Advisor.Service.Endpoint

/-!
Which chats are taken up: the same at both resources, and before anyone is asked anything. What becomes
of them afterwards is told by the status of the one and by the events of the other.
-/

namespace Advisor

open Dialogue Consultation

/-- An attempt that fails only as the completion of a model has failed in it. -/
def Attempt.FailsByModel (x : Attempt α) : Prop :=
  ∀ acts e, Course x.run acts (some (.error e)) →
    ∃ call arrival, .asked (.completion call) arrival ∈ acts ∧ arrival.result = .error e

namespace Consultation

end Consultation

theorem Attempt.FailsByModel.run {x : Attempt α} (hx : x.FailsByModel) {w : World σ} {s : Scene σ}
    (h : (x.run.run w s).1 = some (.error e)) :
    ∃ call y, (w.answer (.completion call) y).1.result = .error e := by
  obtain ⟨acts, _, hcourse, hshows⟩ := run_course w x.run s
  rw [h] at hcourse
  obtain ⟨call, arrival, hmem, hresult⟩ := hx acts e hcourse
  obtain ⟨y, hy⟩ := hshows _ hmem
  exact ⟨call, y, by rw [hy, hresult]⟩

namespace Remote.Model

variable {call : Call} {e : Exchange}

end Remote.Model

namespace Service

def Request.toChat (r : Request) : Request := { r with method := "POST", path := "/station/ai/chat" }

def Request.toStream (r : Request) : Request :=
  { r with method := "POST", path := "/station/ai/chat/stream" }

variable {r : Request} {config : Config} {requestId : String}

theorem taskFor_toChat (config : Config) (requestId : String) (r : Request) :
    taskFor config requestId r.toChat = chatTask config requestId r .answer := by
  have hpath : Route.ofPath? "/station/ai/chat" = some .chat := by decide +kernel
  unfold taskFor
  rw [if_neg (by simp [Request.toChat]), show r.toChat.path = "/station/ai/chat" from rfl, hpath]
  rfl

theorem taskFor_toStream (config : Config) (requestId : String) (r : Request) :
    taskFor config requestId r.toStream = chatTask config requestId r .stream := by
  have hpath : Route.ofPath? "/station/ai/chat/stream" = some .chatStream := by decide +kernel
  unfold taskFor
  rw [if_neg (by simp [Request.toStream]),
    show r.toStream.path = "/station/ai/chat/stream" from rfl, hpath]
  rfl

theorem serve_refused {p : Practice} {w : World σ} {s : Scene σ}
    (h : readTurn config requestId r = .error e) :
    serve p config requestId w s r.toChat = (.failure e, { s with acts := [] }) ∧
      serve p config requestId w s r.toStream = (.failure e, { s with acts := [] }) := by
  unfold serve
  rw [taskFor_toChat, taskFor_toStream, chatTask, h, chatTask, h]
  exact ⟨rfl, rfl⟩

/-- What a chat that is answered at once is told of its turn. -/
inductive Concluded : Option (Except Failure ChatResponse) → Response → Prop
  | answered (response : ChatResponse) :
      Concluded (some (.ok response)) (.json 200 response.toJson)
  | failed (e : Failure) (status : Response.statusOf e ∈ [408, 502, 504]) :
      Concluded (some (.error e)) (.failure e)
  | abandoned : Concluded none (.failure .cancelled)

theorem Concluded.status (h : Concluded result response) :
    (response.status = 200 ↔ ∃ answer, result = some (.ok answer)) ∧ response.status ≠ 400 := by
  cases h with
  | answered answer => simp [Response.json]
  | failed e status =>
      rw [Response.failure, Response.json]
      simp only [List.mem_cons, List.not_mem_nil, or_false] at status
      constructor
      · simp only [Option.some.injEq, reduceCtorEq, exists_false, iff_false]
        omega
      · dsimp only
        omega
  | abandoned => simp [Response.failure, Response.json, Response.statusOf]

def nothing : Request := ⟨"POST", "/station/ai/chat", some "application/json", ""⟩

def torn : Request := { nothing with body := ⟨[0x7B, 0xFF, 0x7D]⟩ }

end Service

end Advisor

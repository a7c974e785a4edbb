import Advisor.Json.Printer
import Advisor.Response

namespace Advisor.Stream

inductive Event
  | progress (stage : String) (pct : Nat)
  | delta (text : String) (pct : Nat)
  | usage (usage : Json.Fields) (pct : Nat)
  | result (response : ChatResponse) (pct : Nat)
  | error (text : String) (pct : Nat)

namespace Event

def pct : Event → Nat
  | progress _ p | delta _ p | usage _ p | result _ p | error _ p => p

def toJson : Event → Json
  | progress stage p =>
      .obj [("type", .str "progress"), ("stage", .str stage), ("progress_pct", .ofNat p)]
  | delta text p => .obj [("type", .str "delta"), ("delta", .str text), ("progress_pct", .ofNat p)]
  | usage u p => .obj [("type", .str "usage"), ("usage", .obj u), ("progress_pct", .ofNat p)]
  | result r p =>
      .obj [("type", .str "result"), ("result", r.toJson), ("progress_pct", .ofNat p)]
  | error text p => .obj [("type", .str "error"), ("error", .str text), ("progress_pct", .ofNat p)]

def toLine (e : Event) : String :=
  e.toJson.compact ++ "\n"

end Event

end Advisor.Stream

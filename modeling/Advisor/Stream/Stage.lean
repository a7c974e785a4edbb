import Advisor.Stream.Event
import Advisor.Stream.Progress

namespace Advisor.Stream

inductive Stage
  | classify
  | plan
  | context
  | preflight
  | retrieval
  | generation
  | retry
  deriving DecidableEq, Repr

namespace Stage

def name : Stage → String
  | classify => "classify"
  | plan => "plan"
  | context => "context"
  | preflight => "preflight"
  | retrieval => "retrieval"
  | generation => "generation"
  | retry => "retry"

def pct : Stage → Nat
  | classify => 5
  | plan => 15
  | context => 25
  | preflight => 32
  | retrieval => 38
  | generation => generationStart
  | retry => retryPct

def event (s : Stage) : Event :=
  .progress s.name s.pct

end Stage

end Advisor.Stream

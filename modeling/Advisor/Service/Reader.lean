namespace Advisor.Service

/-! A client that reads a stream of events. Events wait for it in a buffer; it reads whenever the turn
pauses or the buffer is full. Once it has what it wants it goes away, and the turn is abandoned. -/

def bufferSize : Nat := 64

/-- `wanted` is how many events it stays for; without it, it stays to the end. -/
structure Reader where
  wanted : Option Nat
  sent : Nat
  waiting : Nat
  deriving DecidableEq, Repr

namespace Reader

def start (wanted : Option Nat) : Reader := ⟨wanted, 0, 0⟩

def read? (r : Reader) : Option Reader :=
  match r.wanted with
  | some n => if n ≤ r.sent then none else some { r with waiting := 0 }
  | none => some { r with waiting := 0 }

/-- One event more; nothing when the reader goes away before there is room for it. -/
def offer? (r : Reader) : Option Reader := do
  let r ← if r.waiting < bufferSize then some r else r.read?
  return { r with sent := r.sent + 1, waiting := r.waiting + 1 }

def isGone (r : Reader) : Bool := r.wanted = some 0

end Reader

end Advisor.Service

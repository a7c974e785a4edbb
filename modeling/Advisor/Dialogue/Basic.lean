import Advisor.Dialogue.Memory
import Advisor.Dialogue.Question
import Advisor.Stream.Event

namespace Advisor

/-- A computation as a dialogue with all that is outside it. It learns at once when an answer will
arrive, and has to wait until then before it may use it. A sent event is heard or not. -/
inductive Dialogue (α : Type) : Type
  | done (a : α)
  | ask (q : Question) (next : Arrival q.Answer → Dialogue α)
  | wait (lapse : Lapse) (next : Dialogue α)
  | send (event : Stream.Event) (next : Bool → Dialogue α)
  | read (slot : Slot) (next : Option slot.Value → Dialogue α)
  | store (slot : Slot) (value : slot.Value) (next : Dialogue α)
  | now (next : Timestamp → Dialogue α)

namespace Dialogue

def bind : Dialogue α → (α → Dialogue β) → Dialogue β
  | done a, f => f a
  | ask q next, f => ask q fun a => (next a).bind f
  | wait lapse next, f => wait lapse (next.bind f)
  | send event next, f => send event fun heard => (next heard).bind f
  | read slot next, f => read slot fun v => (next v).bind f
  | store slot value next, f => store slot value (next.bind f)
  | now next, f => now fun t => (next t).bind f

instance : Monad Dialogue where
  pure := done
  bind := bind

theorem bind_done (d : Dialogue α) : d.bind done = d := by
  induction d with
  | done a => rfl
  | ask q next ih => exact congrArg _ (funext ih)
  | wait lapse next ih => exact congrArg _ ih
  | send event next ih => exact congrArg _ (funext ih)
  | read slot next ih => exact congrArg _ (funext ih)
  | store slot value next ih => exact congrArg _ ih
  | now next ih => exact congrArg _ (funext ih)

theorem bind_bind (d : Dialogue α) (f : α → Dialogue β) (g : β → Dialogue γ) :
    (d.bind f).bind g = d.bind fun a => (f a).bind g := by
  induction d with
  | done a => rfl
  | ask q next ih => exact congrArg _ (funext ih)
  | wait lapse next ih => exact congrArg _ ih
  | send event next ih => exact congrArg _ (funext ih)
  | read slot next ih => exact congrArg _ (funext ih)
  | store slot value next ih => exact congrArg _ ih
  | now next ih => exact congrArg _ (funext ih)

instance : LawfulMonad Dialogue :=
  LawfulMonad.mk' Dialogue bind_done (fun _ _ => rfl) bind_bind

def put (q : Question) : Dialogue (Arrival q.Answer) :=
  ask q done

def pause (lapse : Lapse) : Dialogue Unit :=
  wait lapse (done ())

def remembered (slot : Slot) : Dialogue (Option slot.Value) :=
  read slot done

def remember (slot : Slot) (value : slot.Value) : Dialogue Unit :=
  store slot value (done ())

def clock : Dialogue Timestamp :=
  now done

def askWithin (limitMs : Nat) (q : Question) : Dialogue (Except Failure q.Answer) := do
  let arrival ← put q
  let arrival := arrival.limited limitMs
  pause arrival.lapse
  return arrival.result

def await (q : Question) : Dialogue (Except Failure q.Answer) := do
  let arrival ← put q
  pause arrival.lapse
  return arrival.result

def within : Nat → Dialogue α → Dialogue (Option α)
  | _, done a => done (some a)
  | left, ask q next => ask q fun a => within left (next a)
  | left, wait lapse next =>
      if lapse.ms ≤ left then wait lapse (within (left - lapse.ms) next)
      else wait ⟨left, false⟩ (done none)
  | left, send event next => send event fun heard => within left (next heard)
  | left, read slot next => read slot fun v => within left (next v)
  | left, store slot value next => store slot value (within left next)
  | left, now next => now fun t => within left (next t)

/-- Items that are under way, in the order of their arrival; of two at the same time the first of the
list comes first. -/
def inArrivalOrder (items : List (Lapse × α)) : List (Lapse × α) :=
  items.mergeSort fun a b => a.1.ms ≤ b.1.ms

/-- Takes items when they arrive, given how much time has passed since they were asked for, and says
how much has passed in the end. -/
def takeEach (take : β → α → Dialogue β) : Nat → β → List (Lapse × α) → Dialogue (Nat × β)
  | elapsed, b, [] => return (elapsed, b)
  | elapsed, b, (lapse, a) :: rest => do
      pause (lapse.after elapsed)
      let b ← take b a
      takeEach take (max elapsed lapse.ms) b rest

end Dialogue

abbrev Attempt := ExceptT Failure Dialogue

namespace Attempt

def await (q : Question) : Attempt q.Answer :=
  ExceptT.mk (Dialogue.await q)

def pause (lapse : Lapse) : Attempt Unit :=
  ExceptT.lift (Dialogue.pause lapse)

/-- An event that is not heard means that nobody waits for the answer any more. -/
def send (event : Stream.Event) : Attempt Unit :=
  ExceptT.mk (.send event fun heard => .done (if heard then .ok () else .error .cancelled))

def within (limitMs : Nat) (a : Attempt α) : Attempt α :=
  ExceptT.mk do
    match ← Dialogue.within limitMs a.run with
    | some result => return result
    | none => return .error (.timedOut limitMs)

end Attempt

end Advisor

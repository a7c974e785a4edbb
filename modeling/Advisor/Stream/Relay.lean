import Advisor.Dialogue.Basic
import Advisor.Stream.Assembler
import Advisor.Stream.Progress

namespace Advisor.Stream

variable (pace : Nat → Nat)

def deliver : List Step → Attempt Unit
  | [] => return ()
  | .delta text pct :: steps => do
      Attempt.send (.delta text pct)
      deliver steps
  | .failed message :: _ => throw (.provider ("stream error: " ++ message))
  | .done :: steps => deliver steps

/-- The reply of a stream that is done. The usage is told once it is known. -/
def conclude (a : Assembler) : Attempt Reply := do
  match a.usage with
  | some usage => Attempt.send (.usage usage usagePct)
  | none => pure ()
  return a.reply

def relay (a : Assembler) : List Signal → Attempt Reply
  | [] => do
      if a.done then conclude a
      else
        let (a, steps) := a.finish pace
        deliver steps
        conclude a
  | signal :: signals => do
      if a.done then conclude a
      else
        match signal with
        | .line text =>
            let (a, steps) := a.push pace text
            deliver steps
            relay a signals
        | .fault why => throw why
        | .pause lapse =>
            Attempt.pause lapse
            relay a signals

def paceOf (maxTokens runes : Nat) : Nat :=
  Gauge.double.progress runes maxTokens

def relayFor (call : Call) (signals : List Signal) : Attempt Reply :=
  relay (paceOf call.maxTokens) (.start call.model) signals

end Advisor.Stream

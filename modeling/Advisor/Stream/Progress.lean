namespace Advisor.Stream

def generationStart : Nat := 45

def usagePct : Nat := 96

def retryPct : Nat := 97

def donePct : Nat := 100

def generationSpan : Nat := 45

structure Gauge (ν : Type) where
  ofNat : Nat → ν
  runesPerToken : ν
  mul : ν → ν → ν
  div : ν → ν → ν
  min : ν → ν → ν
  ceil : ν → Nat
  floor : ν → Nat

namespace Gauge

variable {ν : Type}

def tokens (g : Gauge ν) (runes : Nat) : Nat :=
  g.ceil (g.div (g.ofNat runes) g.runesPerToken)

def budget (maxTokens : Nat) : Nat :=
  Nat.min (Nat.max maxTokens 500) 6000

def share (g : Gauge ν) (runes maxTokens : Nat) : Nat :=
  let span := g.ofNat generationSpan
  g.floor (g.min (g.div (g.mul span (g.ofNat (g.tokens runes))) (g.ofNat (budget maxTokens))) span)

def progress (g : Gauge ν) (runes maxTokens : Nat) : Nat :=
  generationStart + g.share runes maxTokens

/-- A conversion to a word cuts off what is behind the unit, and goes no further than the greatest. -/
def double : Gauge Float where
  ofNat := Float.ofNat
  runesPerToken := 3.6
  mul := (· * ·)
  div := (· / ·)
  min x y := if x ≤ y then x else y
  ceil x :=
    let whole := x.toUInt64
    if whole.toFloat < x then Nat.min (whole.toNat + 1) (UInt64.size - 1) else whole.toNat
  floor x := x.toUInt64.toNat

end Gauge

end Advisor.Stream

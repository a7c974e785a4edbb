namespace Advisor

/-- A map whose entries expire. Instants and lifetimes are counted in milliseconds. -/
structure Cache (κ ν : Type) where
  entries : List (κ × Nat × ν)

namespace Cache

variable {κ ν : Type} [DecidableEq κ]

def empty : Cache κ ν := ⟨[]⟩

/-- An entry is fresh strictly before it expires. -/
def get? (c : Cache κ ν) (now : Nat) (key : κ) : Option ν :=
  match c.entries.lookup key with
  | some (expires, value) => if now < expires then some value else none
  | none => none

/-- The new entry replaces the key's old one, and whatever has expired goes. -/
def insert (c : Cache κ ν) (now : Nat) (key : κ) (value : ν) (lifetime : Nat) : Cache κ ν :=
  ⟨(key, now + lifetime, value) ::
    c.entries.filter fun (k, expires, _) => k ≠ key ∧ now < expires⟩

def size (c : Cache κ ν) : Nat := c.entries.length

end Cache

end Advisor

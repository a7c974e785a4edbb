import Advisor.Account.Ledger
import Advisor.Cache

namespace Advisor

/-- What is remembered of a documentation page. That it could not be had is remembered too. -/
inductive Knowledge.Entry
  | content (text : String)
  | failed
  deriving DecidableEq, Repr

namespace Knowledge.Entry

def lifetime : Entry → Nat
  | content _ => 30 * 60 * 1000
  | failed => 90 * 1000

def ofText (text : String) : Entry :=
  if (Text.trim text).isEmpty then failed else content text

def text? : Entry → Option String
  | content text => some text
  | failed => none

end Knowledge.Entry

inductive Slot
  | page (key : String)
  | transactions (accountId : String)
  deriving DecidableEq, Repr

abbrev Slot.Value : Slot → Type
  | page _ => Knowledge.Entry
  | transactions _ => List (Account.Transaction Float)

def transactionsLifetime : Nat := 2 * 60 * 1000

def Slot.lifetime : (slot : Slot) → slot.Value → Nat
  | page _, entry => entry.lifetime
  | transactions _, _ => transactionsLifetime

structure Memory where
  pages : Cache String Knowledge.Entry
  transactions : Cache String (List (Account.Transaction Float))

namespace Memory

def empty : Memory := ⟨.empty, .empty⟩

def get? (m : Memory) (now : Nat) : (slot : Slot) → Option slot.Value
  | .page key => m.pages.get? now key
  | .transactions id => m.transactions.get? now id

def store (m : Memory) (now : Nat) (slot : Slot) (value : slot.Value) : Memory :=
  let lifetime := slot.lifetime value
  match slot, value with
  | .page key, entry => { m with pages := m.pages.insert now key entry lifetime }
  | .transactions id, ts => { m with transactions := m.transactions.insert now id ts lifetime }

end Memory

end Advisor

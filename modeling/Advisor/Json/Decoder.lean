import Advisor.Json.Document

namespace Advisor.Json

inductive Fault
  | malformed
  | mistyped
  deriving DecidableEq, Repr

/-- Reads a value of a type, given how many levels it may still nest. Documents are read in the order
of the text, and the first fault decides. -/
abbrev Decoder (α : Type) := (room : Nat) → Document → Except Fault α

namespace Decoder

def fullRoom : Nat := 128

def enter (room : Nat) : Except Fault Nat :=
  if room ≤ 1 then .error .malformed else .ok (room - 1)

def refuse : Document → Fault
  | .broken | .num none | .str none => .malformed
  | _ => .mistyped

def string : Decoder String
  | _, .str (some s) => .ok s
  | _, d => .error (refuse d)

def bool : Decoder Bool
  | _, .bool b => .ok b
  | _, d => .error (refuse d)

def double : Decoder Float
  | _, .num (some (.whole n)) => .ok (Float.ofInt n)
  | _, .num (some (.double x)) => .ok x
  | _, d => .error (refuse d)

def integer (low high : Int) : Decoder Int
  | _, .num (some (.whole n)) => if low ≤ n ∧ n ≤ high then .ok n else .error .mistyped
  | _, d => .error (refuse d)

def signed : Decoder Int :=
  integer (-9223372036854775808) 9223372036854775807

def natural : Decoder Nat := fun room d =>
  (integer 0 18446744073709551615 room d).map Int.toNat

def option (decode : Decoder α) : Decoder (Option α)
  | _, .null => .ok none
  | room, d => (decode room d).map some

def items (decode : Decoder α) (room : Nat) : List Document → Except Fault (List α)
  | [] => .ok []
  | d :: ds => do return (← decode room d) :: (← items decode room ds)

def closing (closed : Bool) : Except Fault Unit :=
  if closed then .ok () else .error .malformed

def list (decode : Decoder α) : Decoder (List α)
  | room, .arr ds closed => do
      let values ← items decode (← enter room) ds
      closing closed
      return values
  | _, d => .error (refuse d)

mutual

/-- Any value. Of a repeated key the last value stands. -/
def value (room : Nat) : Document → Except Fault Json
  | .null => .ok .null
  | .bool b => .ok (.bool b)
  | .num (some n) => .ok (.num n)
  | .str (some s) => .ok (.str s)
  | .arr ds closed => do
      let inside ← enter room
      let vs ← values inside ds
      closing closed
      return .arr vs
  | .obj ms closed => do
      let inside ← enter room
      let fields ← members inside [] ms
      closing closed
      return .obj fields
  | .num none | .str none | .broken => .error .malformed

def values (room : Nat) : List Document → Except Fault (List Json)
  | [] => .ok []
  | d :: ds => do
      let v ← value room d
      return v :: (← values room ds)

def members (room : Nat) (done : Fields) : List (Option String × Document) → Except Fault Fields
  | [] => .ok done
  | (none, _) :: _ => .error .malformed
  | (some k, d) :: ms => do
      let v ← value room d
      members room (done.insert k v) ms

end

def fields : Decoder Fields
  | room, .obj ms closed => do
      let inside ← enter room
      let fields ← members inside [] ms
      closing closed
      return fields
  | _, d => .error (refuse d)

/-- A value from a closed list of names. A name may also stand as the only key of an object, over
null. -/
def named (parse : String → Option α) : Decoder α
  | _, .str (some s) => match parse s with
      | some a => .ok a
      | none => .error .mistyped
  | room, .obj ms closed => do
      let _ ← enter room
      match ms with
      | [] => .error .malformed
      | (none, _) :: _ => .error .malformed
      | (some key, d) :: more =>
          match parse key with
          | none => .error .mistyped
          | some a =>
              match d with
              | .null => if closed && more.isEmpty then .ok a else .error .malformed
              | d => .error (refuse d)
  | _, d => .error (refuse d)

/-- When a field may be missing: never, from an object only, or also from the end of an array. -/
inductive Presence
  | required
  | omissible
  | defaulted
  deriving DecidableEq

structure Field (ρ : Type) where
  name : String
  presence : Presence
  read : Nat → Document → ρ → Except Fault ρ

def field (name : String) (decode : Decoder α) (set : α → ρ → ρ) : Field ρ :=
  ⟨name, .required, fun room d r => (decode room d).map (set · r)⟩

def omissible (name : String) (decode : Decoder α) (set : Option α → ρ → ρ) : Field ρ :=
  ⟨name, .omissible, fun room d r => (option decode room d).map (set · r)⟩

def defaulted (name : String) (decode : Decoder α) (set : α → ρ → ρ) : Field ρ :=
  ⟨name, .defaulted, fun room d r => (decode room d).map (set · r)⟩

inductive Others (ρ : Type)
  | skipped
  | kept (add : String → Json → ρ → ρ)

def others (room : Nat) (d : Document) (key : String) (r : ρ) : Others ρ → Except Fault ρ
  | .skipped => if d.isWhole then .ok r else .error .malformed
  | .kept add => (value room d).map (add key · r)

def recordMembers (schema : List (Field ρ)) (rest : Others ρ) (room : Nat) (seen : List String) (r : ρ) :
    List (Option String × Document) → Except Fault (List String × ρ)
  | [] => .ok (seen, r)
  | (none, _) :: _ => .error .malformed
  | (some key, d) :: ms =>
      match schema.find? (·.name == key) with
      | none => do
          let r ← others room d key r rest
          recordMembers schema rest room seen r ms
      | some f =>
          if seen.contains key then .error .mistyped
          else do
            let r ← f.read room d r
            recordMembers schema rest room (key :: seen) r ms

def recordItems (schema : List (Field ρ)) (room : Nat) (r : ρ) :
    List Document → Bool → Except Fault ρ
  | [], closed =>
      if !closed then .error .malformed
      else if schema.all (·.presence == .defaulted) then .ok r
      else .error .mistyped
  | d :: ds, closed =>
      match schema with
      | [] => .error .malformed
      | f :: schema => do
          let r ← f.read room d r
          recordItems schema room r ds closed

def recordObject (schema : List (Field ρ)) (rest : Others ρ) (blank : ρ) : Decoder ρ
  | room, .obj ms closed => do
      let inside ← enter room
      let (seen, r) ← recordMembers schema rest inside [] blank ms
      closing closed
      if schema.all fun f => f.presence != .required || seen.contains f.name then return r
      else throw .mistyped
  | _, d => .error (refuse d)

/-- A record from an object, or from an array of its fields in the order of the schema. -/
def record (schema : List (Field ρ)) (blank : ρ) : Decoder ρ
  | room, .arr ds closed => do
      let inside ← enter room
      recordItems schema inside blank ds closed
  | room, d => recordObject schema .skipped blank room d

/-- A record that keeps the members it does not name. It has no array form. -/
def openRecord (schema : List (Field ρ)) (keep : String → Json → ρ → ρ) (blank : ρ) : Decoder ρ :=
  recordObject schema (.kept keep) blank

def ofJson (decode : Decoder α) (v : Json) : Except Fault α :=
  decode fullRoom (.ofJson v)

/-- The first value of a text; what follows it is not looked at. -/
def ofPrefix (decode : Decoder α) (text : String) : Except Fault α :=
  decode fullRoom (Document.read text.toList).1

def ofText (decode : Decoder α) (text : String) : Except Fault α := do
  let (d, rest) := Document.read text.toList
  let a ← decode fullRoom d
  match rest with
  | some cs => if cs.all Document.isSpace then return a else throw .malformed
  | none => throw .malformed

end Decoder

def parse? (text : String) : Option Json :=
  (Decoder.ofText Decoder.value text).toOption

end Advisor.Json

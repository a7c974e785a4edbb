import Advisor.Completion.Body
import Advisor.Json.Printer

namespace Advisor.Stream

structure Chunk where
  id : Option String
  model : Option String
  choices : List (Option Completion.Content)
  usage : Option Json.Fields
  error : Option Json

namespace Chunk

open Json.Decoder

def decoder : Json.Decoder Chunk :=
  record
    [ defaulted "id" (option string) fun v c => { c with id := v },
      defaulted "model" (option string) fun v c => { c with model := v },
      defaulted "choices" (list (Completion.choice "delta")) fun v c => { c with choices := v },
      defaulted "usage" (option fields) fun v c => { c with usage := v },
      defaulted "error" (option value) fun v c => { c with error := v }]
    ⟨none, none, [], none, none⟩

def ofText? (text : String) : Option Chunk :=
  (ofText decoder text).toOption

def text (c : Chunk) : String :=
  String.join ((c.choices.filterMap fun content => content).map Completion.Content.plain)

def errorText (error : Json) : String :=
  match error with
  | .str s => s
  | .obj _ => ((error.get? "message").bind Json.str?).getD error.compact
  | other => other.compact

end Chunk

inductive Step
  | delta (text : String) (pct : Nat)
  | done
  | failed (message : String)
  deriving DecidableEq, Repr

/-- A streamed completion as far as it has been read. `pending` holds the data lines of an event that
has not ended, oldest first. -/
structure Assembler where
  pending : List String
  answer : String
  model : String
  messageId : String
  usage : Option Json.Fields
  done : Bool

namespace Assembler

def start (requestedModel : String) : Assembler :=
  ⟨[], "", requestedModel, "", none, false⟩

/-- Takes in what a chunk says of the reply. The last named model and the last usage that says something
stand, and the first id. -/
def absorb (a : Assembler) (c : Chunk) : Assembler :=
  { a with
    model := (Completion.namedModel c.model).getD a.model
    messageId := if a.messageId.isEmpty then c.id.getD a.messageId else a.messageId
    usage := (c.usage.filter fun u => !u.isEmpty).or a.usage
    answer := a.answer ++ c.text }

variable (pace : Nat → Nat)

/-- Ends the pending event. Data that is no chunk is passed over; an error ends the stream. `pace` tells
the progress from the runes of the answer. -/
def flush (a : Assembler) : Assembler × List Step :=
  if a.pending.isEmpty then (a, [])
  else
    let data := "\n".intercalate a.pending
    let a := { a with pending := [] }
    match Chunk.ofText? data with
    | none => (a, [])
    | some c =>
        match c.error with
        | some error => ({ a with done := true }, [.failed (Chunk.errorText error)])
        | none =>
            let b := a.absorb c
            (b, if c.text.isEmpty then [] else [.delta c.text (pace (Text.runeCount b.answer))])

def finish (a : Assembler) : Assembler × List Step :=
  if a.done then (a, [])
  else
    let (b, steps) := a.flush pace
    if b.done then (b, steps) else ({ b with done := true }, steps ++ [.done])

def payload? (line : String) : Option String :=
  (Text.afterPrefix? "data:".toList line.toList).map fun cs => Text.trim (.ofList cs)

/-- A blank line ends an event and the sentinel the stream. Lines of other fields and comments carry
nothing. -/
def push (a : Assembler) (line : String) : Assembler × List Step :=
  if a.done then (a, [])
  else if (Text.trim line).isEmpty then a.flush pace
  else
    match payload? line with
    | none => (a, [])
    | some data =>
        if data = "[DONE]" then a.finish pace
        else ({ a with pending := a.pending ++ [data] }, [])

def reply (a : Assembler) : Reply :=
  ⟨a.answer, a.model, a.messageId, a.usage.getD []⟩

end Assembler

end Advisor.Stream

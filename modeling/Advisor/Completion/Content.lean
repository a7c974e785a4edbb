import Advisor.Json.Decoder

namespace Advisor.Completion

structure Part where
  kind : Option String
  text : Option String
  deriving DecidableEq, Repr

inductive Content
  | text (s : String)
  | parts (ps : List Part)
  deriving DecidableEq, Repr

/-- Parts of no kind or of a textual kind are text. -/
def Part.isText (p : Part) : Bool :=
  match p.kind with
  | none | some "text" | some "output_text" => true
  | some _ => false

def Content.plain : Content → String
  | text s => s
  | parts ps => String.join ((ps.filter Part.isText).filterMap (·.text))

open Json Json.Decoder

def Part.decoder : Json.Decoder Part :=
  record
    [ defaulted "type" (option string) fun v p => { p with kind := v },
      defaulted "text" (option string) fun v p => { p with text := v }]
    ⟨none, none⟩

/-- The whole value is read before it is told which form it has. -/
def Content.decoder : Json.Decoder Content := fun room d => do
  let _ ← value room d
  match d with
  | .str (some s) => return .text s
  | d => return .parts (← list Part.decoder room d)

end Advisor.Completion

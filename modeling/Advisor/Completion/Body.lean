import Advisor.Completion.Call
import Advisor.Completion.Content
import Advisor.Failure

namespace Advisor.Completion

structure Body where
  id : Option String
  model : Option String
  choices : List (Option Content)
  usage : Option Json.Fields

open Json.Decoder

def carrier (name : String) : Json.Decoder (Option Content) :=
  record [defaulted name (option Content.decoder) fun v _ => v] none

def choice (name : String) : Json.Decoder (Option Content) :=
  record [defaulted name (option (carrier "content")) fun v _ => v.join] none

def Body.decoder : Json.Decoder Body :=
  record
    [ defaulted "id" (option string) fun v b => { b with id := v },
      defaulted "model" (option string) fun v b => { b with model := v },
      defaulted "choices" (list (choice "message")) fun v b => { b with choices := v },
      defaulted "usage" (option fields) fun v b => { b with usage := v }]
    ⟨none, none, [], none⟩

def namedModel (model : Option String) : Option String :=
  model.filter fun m => !(Text.trim m).isEmpty

/-- The reply that a completion body holds: its first choice, under the model that answered or else the
one asked. -/
def parse (body requestedModel : String) : Except Failure Reply :=
  match ofText Body.decoder body with
  | .error _ =>
      .error (.provider ("malformed completion body: not a completion | raw=" ++ clipBody body))
  | .ok b =>
      match b.choices with
      | [] => .error (.provider "completion has no choices")
      | content :: _ => .ok {
          answer := (content.map Content.plain).getD ""
          model := (namedModel b.model).getD requestedModel
          messageId := b.id.getD ""
          usage := b.usage.getD [] }

end Advisor.Completion

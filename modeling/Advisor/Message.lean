import Advisor.Json.Decoder

namespace Advisor

inductive Role
  | system
  | user
  | assistant
  deriving DecidableEq, Repr, Inhabited

namespace Role

def name : Role → String
  | system => "system"
  | user => "user"
  | assistant => "assistant"

def ofName? : String → Option Role
  | "system" => some system
  | "user" => some user
  | "assistant" => some assistant
  | _ => none

end Role

structure Message where
  role : Role
  content : String
  deriving DecidableEq, Repr, Inhabited

structure RawMessage where
  role : String
  content : String
  deriving DecidableEq, Repr, Inhabited

open Json.Decoder

namespace Message

def toJson (m : Message) : Json :=
  .obj [("role", .str m.role.name), ("content", .str m.content)]

def decoder : Json.Decoder Message :=
  record
    [ field "role" (named Role.ofName?) fun v m => { m with role := v },
      field "content" string fun v m => { m with content := v }]
    ⟨.user, ""⟩

end Message

namespace RawMessage

def decoder : Json.Decoder RawMessage :=
  record
    [ defaulted "role" string fun v m => { m with role := v },
      defaulted "content" string fun v m => { m with content := v }]
    ⟨"", ""⟩

end RawMessage

end Advisor

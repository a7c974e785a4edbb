import Advisor.Json.Printer
import Advisor.Remote.Target
import Advisor.Text.Utf16

namespace Advisor.Remote

/-! A request to a server, and all that can come of it. -/

structure Request where
  method : String
  target : Target
  bearer : Option String
  body : Option Json

namespace Request

def make? (method url : String) (query : List (String × String)) (bearer : Option String)
    (body : Option Json) : Option Request :=
  (Target.ofUrl? url).map fun t => ⟨method, { t with query := t.query ++ query }, bearer, body⟩

def get? (url : String) (query : List (String × String)) (bearer : Option String) : Option Request :=
  make? "GET" url query bearer none

def post? (url : String) (bearer : Option String) (body : Json) : Option Request :=
  make? "POST" url [] bearer (some body)

/-- A key with control characters in it cannot be sent. -/
def isSendable (r : Request) : Bool :=
  match r.bearer with
  | some key => key.toList.all fun c => c == '\t' || (0x20 ≤ c.toNat && c.toNat != 0x7F)
  | none => true

/-- The credentials as a server reads them; white space at the end of a field does not count. -/
def authorization (r : Request) : Option String :=
  r.bearer.map fun key => Text.trim ("Bearer " ++ key)

end Request

/-- How the body of a response ends: where it should, too early, or never. -/
inductive Ending
  | whole
  | cut
  | stalled
  deriving DecidableEq, Repr

inductive Exchange
  | answered (status : Nat) (body : List UInt8) (ending : Ending)
  | silent
  | refused
  deriving DecidableEq, Repr

inductive Breakdown
  | timedOut
  | broken
  deriving DecidableEq, Repr

namespace Exchange

def perform (r : Option Request) (e : Exchange) : Option Request × Exchange :=
  match r with
  | some r => if r.isSendable && e != refused then (some r, e) else (none, refused)
  | none => (none, refused)

def isInterim (status : Nat) : Bool := 100 ≤ status && status < 200 && status != 101

def isBodiless (status : Nat) : Bool := status == 101 || status == 204 || status == 304

def isStatus (status : Nat) : Bool := 100 ≤ status && status < 1000

/-- What comes instead of the response that should follow an interim one: bytes that are none, or nothing
more. -/
def afterInterim (body : List UInt8) (ending : Ending) : Breakdown :=
  if body.isEmpty && ending == .stalled then .timedOut else .broken

def head : Exchange → Except Breakdown (Nat × List UInt8 × Ending)
  | answered status body ending =>
      if !isStatus status then .error .broken
      else if isInterim status then .error (afterInterim body ending)
      else if isBodiless status then .ok (status, [], .whole)
      else .ok (status, body, ending)
  | silent => .error .timedOut
  | refused => .error .broken

def textOf (body : List UInt8) : Ending → Except Breakdown String
  | .whole => .ok (Text.decodeMarked body)
  | .cut => .error .broken
  | .stalled => .error .timedOut

def isSuccess (status : Nat) : Bool := 200 ≤ status && status < 300

end Exchange

def reasons : List (Nat × String) :=
  [ (100, "Continue"), (101, "Switching Protocols"), (102, "Processing"), (103, "Early Hints"),
    (200, "OK"), (201, "Created"), (202, "Accepted"), (203, "Non Authoritative Information"),
    (204, "No Content"), (205, "Reset Content"), (206, "Partial Content"), (207, "Multi-Status"),
    (208, "Already Reported"), (226, "IM Used"), (300, "Multiple Choices"),
    (301, "Moved Permanently"), (302, "Found"), (303, "See Other"), (304, "Not Modified"),
    (305, "Use Proxy"), (307, "Temporary Redirect"), (308, "Permanent Redirect"),
    (400, "Bad Request"), (401, "Unauthorized"), (402, "Payment Required"), (403, "Forbidden"),
    (404, "Not Found"), (405, "Method Not Allowed"), (406, "Not Acceptable"),
    (407, "Proxy Authentication Required"), (408, "Request Timeout"), (409, "Conflict"),
    (410, "Gone"), (411, "Length Required"), (412, "Precondition Failed"),
    (413, "Payload Too Large"), (414, "URI Too Long"), (415, "Unsupported Media Type"),
    (416, "Range Not Satisfiable"), (417, "Expectation Failed"), (418, "I'm a teapot"),
    (421, "Misdirected Request"), (422, "Unprocessable Entity"), (423, "Locked"),
    (424, "Failed Dependency"), (425, "Too Early"), (426, "Upgrade Required"),
    (428, "Precondition Required"), (429, "Too Many Requests"),
    (431, "Request Header Fields Too Large"), (451, "Unavailable For Legal Reasons"),
    (500, "Internal Server Error"), (501, "Not Implemented"), (502, "Bad Gateway"),
    (503, "Service Unavailable"), (504, "Gateway Timeout"), (505, "HTTP Version Not Supported"),
    (506, "Variant Also Negotiates"), (507, "Insufficient Storage"), (508, "Loop Detected"),
    (510, "Not Extended"), (511, "Network Authentication Required") ]

def statusText (status : Nat) : String :=
  toString status ++ " " ++ (reasons.lookup status).getD "<unknown status code>"

end Advisor.Remote

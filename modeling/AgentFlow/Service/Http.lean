import AgentFlow.Json.Finite
import AgentFlow.Service.Target
import AgentFlow.Text.Case

/-!
# Requests and responses

## Main definitions

* `Request`, `Request.sent`, `Request.header?`.
* `Content`, `Response`, `Response.send`.
-/

namespace AgentFlow

/-- A request to the service. -/
structure Request where
  /-- The method, in capitals. -/
  method : String
  /-- The path. -/
  path : String
  /-- The headers. -/
  headers : List (String × String) := []
  /-- The bytes of the body; there are none if there is no body. -/
  body : List UInt8 := []
  deriving DecidableEq, Repr

/-- The request that a client makes of a method and a target, in any case and with or without a
query. -/
def Request.sent (method target : String) (headers : List (String × String))
    (body : List UInt8) : Request :=
  { method := Text.upper method, path := Target.path target, headers, body }

/-- A header name in small letters. -/
def headerName (name : String) : String :=
  String.ofList (Chars.lowerAscii name.toList)

/-- The value of a header, whose name is given in small letters. -/
def Request.header? (r : Request) (name : String) : Option String :=
  (r.headers.find? fun h => headerName h.1 = name).map (·.2)

/-- What a response carries. -/
inductive Content where
  /-- A JSON value. -/
  | json (value : Json)
  /-- Plain text. -/
  | text (s : String)

/-- A response of the service. -/
structure Response where
  /-- The status. -/
  status : Nat
  /-- The body. -/
  content : Content
  /-- The origin that may see the response. -/
  allowOrigin : Option String := none
  /-- The response may be seen by requests with credentials. -/
  allowCredentials : Bool := false

/-- A response whose body tells why there is nothing better. -/
def Response.detail (status : Nat) (message : String) : Response :=
  { status, content := .json (.object [("detail", .text message)]) }

/-- Why a response cannot be sent. -/
inductive SendError where
  /-- It carries a number that is not finite. -/
  | notFinite
  deriving DecidableEq, Repr

/-- The message for users. -/
def SendError.message : SendError → String
  | .notFinite => "Out of range float values are not JSON compliant"

/-- The response as it is sent. -/
def Response.send (r : Response) : Except SendError Response :=
  match r.content with
  | .json v => if v.isFinite then .ok r else .error .notFinite
  | .text _ => .ok r

end AgentFlow

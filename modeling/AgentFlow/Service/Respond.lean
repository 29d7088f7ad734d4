import AgentFlow.Service.Cors
import AgentFlow.Service.Endpoint

/-!
# The service

Finds the endpoint of a request.  A path that differs from an endpoint's only by slashes at its end
is redirected.

## Main definitions

* `Service.respond`: the response to a request.
-/

namespace AgentFlow

namespace Service

/-- The path with the slashes at its end taken away, or one added if there are none. -/
def otherPath (path : String) : String :=
  if path.toList.getLast? = some '/' then String.ofList (Chars.trimRight (· = '/') path.toList)
  else path ++ "/"

/-- The response of the endpoint that a request is for. -/
def route (s : Settings) (r : Request) : Response :=
  match Endpoint.atPath? s r.path with
  | some e => if r.method = e.method then e.handle r else .detail 405 "Method Not Allowed"
  | none =>
    if r.path ≠ "/" ∧ (Endpoint.atPath? s (otherPath r.path)).isSome then
      { status := 307, content := .text "" }
    else .detail 404 "Not Found"

/-- The response to a request, if it can be sent. -/
def respond (s : Settings) (r : Request) : Except SendError Response :=
  (Cors.guard s.corsOrigins r (route s)).send

end Service

end AgentFlow

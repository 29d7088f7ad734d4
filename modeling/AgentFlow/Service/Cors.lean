import AgentFlow.Service.Http

/-!
# Requests from other origins

A browser tells the origin of the page that makes a request.  The service answers whether that
origin is allowed; before some requests a browser asks first.

## Main definitions

* `Cors.isAllowed`: an origin is allowed.
* `Cors.preflight`: the answer to a browser that asks first.
* `Cors.decorate`: says in a response whether the origin is allowed.
* `Cors.guard`: tells the two cases apart.
-/

namespace AgentFlow

namespace Cors

/-- The origin is listed, or every origin is allowed. -/
def isAllowed (origins : List String) (origin : String) : Bool :=
  origins.contains "*" || origins.contains origin

/-- The methods that may be asked for. -/
def methods : List String :=
  ["DELETE", "GET", "HEAD", "OPTIONS", "PATCH", "POST", "PUT", "QUERY"]

/-- The header that makes a request a question. -/
def requestMethodHeader : String := "access-control-request-method"

/-- The header that asks for access from a public network to a private one.  Its value does not
matter. -/
def privateNetworkHeader : String := "access-control-request-private-network"

/-- The answer to a browser that asks first.  Access to a private network is never given. -/
def preflight (origins : List String) (origin method : String) (r : Request) : Response :=
  let allowed := isAllowed origins origin
  let faults :=
    (if allowed then [] else ["origin"]) ++
    (if methods.contains method then [] else ["method"]) ++
    (if (r.header? privateNetworkHeader).isSome then ["private-network"] else [])
  { status := if faults.isEmpty then 200 else 400
    content := .text
      (if faults.isEmpty then "OK" else "Disallowed CORS " ++ String.intercalate ", " faults)
    allowOrigin := if allowed then some origin else none
    allowCredentials := true }

/-- Says in a response whether the origin is allowed. -/
def decorate (origins : List String) (origin : String) (r : Response) : Response :=
  { r with
    allowOrigin := if isAllowed origins origin then some origin else none
    allowCredentials := true }

/-- Answers questions of browsers, and lets every other request through to be decorated. -/
def guard (origins : List String) (r : Request) (handle : Request → Response) : Response :=
  match r.header? "origin" with
  | none => handle r
  | some origin =>
    match r.header? requestMethodHeader with
    | some method =>
      if r.method = "OPTIONS" then preflight origins origin method r
      else decorate origins origin (handle r)
    | none => decorate origins origin (handle r)

end Cors

end AgentFlow

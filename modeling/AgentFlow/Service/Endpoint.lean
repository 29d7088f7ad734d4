import AgentFlow.Json.Reader
import AgentFlow.Service.Answer
import AgentFlow.Service.Http
import AgentFlow.Settings
import AgentFlow.Text.Encoding

/-!
# Endpoints

What the service does for each of its paths, once the body of the request was read.

## Main definitions

* `Endpoint`, `Endpoint.path`, `Endpoint.method`.
* `ConnectionQuestion`, `MessageEdit`: bodies of requests.
* `Endpoint.compileAnswer`, `Endpoint.validateAnswer`, `Endpoint.connectionAnswer`,
  `Endpoint.messageAnswer`: the work of the endpoints.
* `Endpoint.handle`: reads the body and answers.
-/

namespace AgentFlow

/-! ### Paths -/

/-- The endpoints of the service. -/
inductive Endpoint where
  /-- Tells that the service is up. -/
  | health
  /-- Lists the templates of all kinds. -/
  | nodeKinds
  /-- Gives the program of a workflow. -/
  | compile
  /-- Gives the findings on a workflow. -/
  | validate
  /-- Checks an edge. -/
  | connection
  /-- Sets the message of an input. -/
  | inputMessage
  deriving DecidableEq, Repr

namespace Endpoint

/-- The path of an endpoint. -/
def path : Endpoint → String
  | .health => "/health"
  | .nodeKinds => "/workflows/node-kinds"
  | .compile => "/workflows/compile"
  | .validate => "/workflows/validate"
  | .connection => "/workflows/connections/validate"
  | .inputMessage => "/workflows/input-message"

/-- The method of an endpoint. -/
def method : Endpoint → String
  | .health => "GET"
  | .nodeKinds => "GET"
  | .compile => "POST"
  | .validate => "POST"
  | .connection => "POST"
  | .inputMessage => "POST"

/-- The endpoints that an installation offers. -/
def offered (s : Settings) : List Endpoint :=
  .health ::
    if s.workflowApiEnabled then [.nodeKinds, .compile, .validate, .connection, .inputMessage]
    else []

/-- The offered endpoint with a path. -/
def atPath? (s : Settings) (path : String) : Option Endpoint :=
  (offered s).find? fun e => e.path = path

end Endpoint

/-! ### Bodies -/

/-- A body that asks about an edge. -/
structure ConnectionQuestion where
  /-- The workflow that the edge would be drawn in. -/
  workflow : Document
  /-- The id of the node it would leave. -/
  source : NodeId
  /-- The id of the node it would enter. -/
  target : NodeId

/-- Reads a body that asks about an edge. -/
def ConnectionQuestion.decode : Json → Checked ConnectionQuestion :=
  Read.record .request "ConnectionCheckRequest" fun m =>
    (fun workflow source target => { workflow, source, target }) <$>
      Read.required m (.same "workflow") (Document.decode .request) <*>
      Read.required m (.same "source") Read.text <*>
      Read.required m (.same "target") Read.text

/-- A body that sets the message of an input. -/
structure MessageEdit where
  /-- The workflow. -/
  workflow : Document
  /-- The id of the input. -/
  inputId : NodeId
  /-- The message. -/
  message : String

/-- Reads a body that sets the message of an input. -/
def MessageEdit.decode : Json → Checked MessageEdit :=
  Read.record .request "InputMessageRequest" fun m =>
    (fun workflow inputId message => { workflow, inputId, message }) <$>
      Read.required m (.same "workflow") (Document.decode .request) <*>
      Read.required m (.same "input_id") Read.text <*>
      Read.required m (.same "message") Read.text

/-! ### Answers -/

/-- A successful answer. -/
def Response.ok (v : Json) : Response := { status := 200, content := .json v }

/-- The status of a failed operation. -/
def Failure.status : Failure → Nat
  | .unresolved _ => 422
  | .nodeNotFound _ => 404
  | .edgeNotFound _ => 500
  | .duplicateNode _ => 500
  | .fixedField _ => 400
  | .unknownField _ _ => 400
  | .derivedInput _ => 400
  | .invalidValue _ _ _ => 400
  | .messageOnNonInput _ => 400
  | .messageNotText _ => 400
  | .notInput _ => 500

/-- The answer to a request that fails. -/
def Failure.response (f : Failure) : Response := .detail f.status f.message

namespace Endpoint

/-- The program of a workflow. -/
def compileAnswer (d : Document) : Response :=
  match Store.ofDocument d with
  | .error r => (Failure.unresolved r).response
  | .ok s =>
    match s.document.compile with
    | .ok code => .ok (.object [("code", .text code)])
    | .error (.unresolved r) => (Failure.unresolved r).response
    | .error e => .detail 500 e.message

/-- The findings on a workflow. -/
def validateAnswer (d : Document) : Response :=
  let findings := d.graph.findings
  .ok (.object [
    ("valid", .bool findings.isEmpty),
    ("errors", .list (findings.map Finding.encode))])

/-- The answer about an edge. -/
def connectionAnswer (q : ConnectionQuestion) : Response :=
  match Store.ofDocument q.workflow with
  | .error r => (Failure.unresolved r).response
  | .ok s =>
    match s.node q.source, s.node q.target with
    | .error e, _ => e.response
    | _, .error e => e.response
    | .ok source, .ok target =>
      .ok (Refusal.encode? (checkConnection source target s.graph.edges))

/-- The workflow after the message of an input was set. -/
def messageAnswer (e : MessageEdit) : Response :=
  match Store.ofDocument e.workflow with
  | .error r => (Failure.unresolved r).response
  | .ok s =>
    let after := s.setInputMessage e.inputId (.text e.message)
    match after.result with
    | .ok () => .ok (after.store.document.encode .editor).finite
    | .error f => f.response

/-! ### Reading the body -/

/-- The answer to a request whose body has issues. -/
def refused (issues : List Issue) : Response :=
  { status := 422
    content := .json (.object [
      ("detail", .list (issues.map fun i => (i.under (.key "body")).report))]) }

/-- The answer to a request whose body is malformed at an offset. -/
def malformed (offset : Nat) : Response :=
  { status := 422
    content := .json (.object [
      ("detail", .list [.object [
        ("type", .text "json_invalid"),
        ("loc", .list [.text "body", .int offset]),
        ("msg", .text "JSON decode error"),
        ("input", .object [])]])]) }

/-- The answer to a request whose body is no text, or a text beyond the limits of the reader. -/
def unreadable : Response := .detail 400 "There was an error parsing the body"

/-- Reads the body and answers. -/
def withBody {α : Type} (r : Request) (decode : Json → Checked α) (answer : α → Response) :
    Response :=
  if r.body.isEmpty then refused [{ cause := .missing, part := .null }]
  else
    match Encoding.text? r.body with
    | none => unreadable
    | some s =>
      match Json.read s with
      | .error (.malformed offset) => malformed offset
      | .error .oversized => unreadable
      | .error .tooDeep => unreadable
      | .ok v =>
        match decode v with
        | .invalid issues => refused issues
        | .valid a => answer a

/-- Answers a request to an endpoint. -/
def handle (e : Endpoint) (r : Request) : Response :=
  match e with
  | .health => .ok (.object [("status", .text "ok")])
  | .nodeKinds => .ok (.object [("kinds", catalog)])
  | .compile => withBody r (Document.decode .request) compileAnswer
  | .validate => withBody r (Document.decode .request) validateAnswer
  | .connection => withBody r ConnectionQuestion.decode connectionAnswer
  | .inputMessage => withBody r MessageEdit.decode messageAnswer

end Endpoint

end AgentFlow

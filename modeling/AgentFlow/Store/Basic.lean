import AgentFlow.Program.Render
import AgentFlow.Propagation.Resync
import AgentFlow.Store.Template
import AgentFlow.Validation

/-!
# The store

The store holds the document that is being edited.  Edges enter it only after the connection check,
and after every change of the edges or of a message the inputs of the runners are brought up to
date.

An operation gives back the store after it, whether or not it failed: bringing the runners up to
date comes after the change, and may fail where ids repeat.

## Main definitions

* `Store`, `Store.ofDocument`: a document in the editor.
* `Failure`, `Failure.message`: why an operation fails.
* `Outcome`: the store after an operation, and its answer.
* The operations, from `Store.load` to `Store.removeEdge`.
-/

namespace AgentFlow

/-- A document that is being edited, with the supply of tokens for new ids. -/
structure Store where
  /-- The document. -/
  document : Document
  /-- The supply of tokens. -/
  tokens : Tokens := {}
  deriving DecidableEq, Repr

/-- Why an operation on the store fails. -/
inductive Failure where
  /-- A document has an edge that ends nowhere. -/
  | unresolved (reference : UnresolvedReference)
  /-- No node has the id. -/
  | nodeNotFound (id : NodeId)
  /-- No edge has the id. -/
  | edgeNotFound (id : EdgeId)
  /-- A node has the id already. -/
  | duplicateNode (id : NodeId)
  /-- The member never changes. -/
  | fixedField (field : String)
  /-- The payload has no such member. -/
  | unknownField (field : String) (kind : Kind)
  /-- The input of a runner is not edited by hand. -/
  | derivedInput (id : NodeId)
  /-- The value does not fit the member. -/
  | invalidValue (field : String) (id : NodeId) (issues : List Issue)
  /-- Only inputs have a message. -/
  | messageOnNonInput (id : NodeId)
  /-- A message is a text. -/
  | messageNotText (id : NodeId)
  /-- Bringing the runners up to date met a node that is not an input. -/
  | notInput (id : NodeId)
  deriving Repr

/-- The message for users. -/
def Failure.message : Failure → String
  | .unresolved r => r.message
  | .nodeNotFound id => "Node " ++ id ++ " not found"
  | .edgeNotFound id => "Edge " ++ id ++ " not found"
  | .duplicateNode id => "Node " ++ id ++ " already exists"
  | .fixedField field => "Field '" ++ field ++ "' cannot be changed"
  | .unknownField field kind => "Unknown field '" ++ field ++ "' for " ++ kind.name ++ " node"
  | .derivedInput id =>
    "Runner " ++ id ++ " input follows its upstream Input node and cannot be edited"
  | .invalidValue field id _ => "Invalid value for '" ++ field ++ "' on node " ++ id ++ ": "
  | .messageOnNonInput id => "Node " ++ id ++ " is not an input node"
  | .messageNotText id => "Input " ++ id ++ " message must be a string"
  | .notInput id => "Node " ++ id ++ " is not an input node"

/-- A failed propagation as a failed operation. -/
def Failure.ofPropagation : PropagationError → Failure
  | .unresolved r => .unresolved r
  | .notInput id => .notInput id

/-- The store after an operation, and its answer. -/
structure Outcome (α : Type) where
  /-- The store after the operation. -/
  store : Store
  /-- The answer, or why the operation failed. -/
  result : Except Failure α

namespace Store

/-- Members that never change. -/
def fixedFields : List String := ["id", "node_type", "nodeType"]

/-- A store for a document all of whose edges end at nodes. -/
def ofDocument (d : Document) : Except UnresolvedReference Store := do
  d.graph.checkReferences
  return { document := d }

variable (s : Store)

/-- The graph of the document. -/
def graph : Graph := s.document.graph

/-- The store with another graph. -/
def withGraph (g : Graph) : Store := { s with document := s.document.withGraph g }

/-- An operation that does nothing but answer. -/
def answer {α : Type} (a : α) : Outcome α := ⟨s, .ok a⟩

/-- An operation that fails before it has changed anything. -/
def fail {α : Type} (e : Failure) : Outcome α := ⟨s, .error e⟩

/-- Brings the inputs of the runners up to date, then answers. -/
def resyncThen {α : Type} (a : α) : Outcome α :=
  match s.graph.resync with
  | .ok g => (s.withGraph g).answer a
  | .error e => s.fail (.ofPropagation e)

/-- The first node with an id. -/
def node (id : NodeId) : Except Failure Node :=
  match s.graph.firstNode? id with
  | some n => .ok n
  | none => .error (.nodeNotFound id)

/-! ### The document -/

/-- Gives the workflow another name. -/
def setName (name : String) : Outcome Unit :=
  answer { s with document := { s.document with name } } ()

/-- Gives the workflow another description. -/
def setDescription (description : String) : Outcome Unit :=
  answer { s with document := { s.document with description } } ()

/-- Replaces the whole document. -/
def load (d : Document) : Outcome Unit :=
  match d.graph.checkReferences with
  | .error r => s.fail (.unresolved r)
  -- from here on the new document stays, even if bringing its runners up to date fails
  | .ok () => resyncThen { s with document := d } ()

/-! ### Nodes -/

/-- Adds a node at the end. -/
def addNode (n : Node) : Outcome Node :=
  if (s.graph.firstNode? n.id).isSome then s.fail (.duplicateNode n.id)
  else (s.withGraph { s.graph with nodes := s.graph.nodes ++ [n] }).answer n

/-- Adds a new node of a kind. -/
def addNodeOfKind (k : Kind) (id : Option NodeId := none) (position : Option Position := none) :
    Outcome Node :=
  let (n, tokens) := Node.create s.tokens k id position (some s.graph)
  addNode { s with tokens } n

/-- Removes the nodes with an id, and every edge that touches them. -/
def removeNode (id : NodeId) : Outcome Unit :=
  match s.node id with
  | .error e => s.fail e
  | .ok _ =>
    let g : Graph :=
      { nodes := s.graph.nodes.filter (·.id ≠ id)
        edges := s.graph.edges.filter fun e => e.source ≠ id ∧ e.target ≠ id }
    (s.withGraph g).resyncThen ()

/-- Puts a payload into a node; every node with its id is replaced by the result. -/
def replacePayload (n : Node) (p : Payload) : Outcome Node :=
  let updated := { n with payload := p }
  let nodes := s.graph.nodes.map fun m => if m.id = n.id then updated else m
  (s.withGraph { s.graph with nodes }).answer updated

/-- Shows a node expanded if it was not, and the other way round. -/
def toggleExpansion (id : NodeId) : Outcome Unit :=
  match s.node id with
  | .error e => s.fail e
  | .ok n => { s.replacePayload n n.payload.toggled with result := .ok () }

/-- Sets the message of an input, and with it the input of the runners downstream. -/
def setInputMessage (id : NodeId) (message : Json) : Outcome Unit :=
  match s.node id with
  | .error e => s.fail e
  | .ok n =>
    if n.kind ≠ .input then s.fail (.messageOnNonInput id)
    else
      match message with
      | .text m =>
        match s.graph.propagate id m with
        | .ok g => (s.withGraph g).answer ()
        | .error e => s.fail (.ofPropagation e)
      | _ => s.fail (.messageNotText id)

/-- The payload with the value of one member replaced, read anew. -/
def editedPayload (p : Payload) (f : FieldName) (value : Json) : Checked Payload :=
  Payload.decodeAs .document p.kind (.object ((p.members .plain).put f.plain value))

/-- Edits one member of a payload, named by either spelling.  The message of an input is set as by
`setInputMessage`. -/
def setField (id : NodeId) (field : String) (value : Json) : Outcome Node :=
  match s.node id with
  | .error e => s.fail e
  | .ok n =>
    if field ∈ fixedFields then s.fail (.fixedField field)
    else
      match Payload.resolve? n.kind field with
      | none => s.fail (.unknownField field n.kind)
      | some f =>
        if n.kind = .runner ∧ f.plain = "input" then s.fail (.derivedInput id)
        else
          match editedPayload n.payload f value with
          | .invalid issues => s.fail (.invalidValue field id issues)
          | .valid p =>
            match p with
            | .input d =>
              -- the runners downstream follow the message, so it is not simply put in place
              if f.plain = "message" then
                let after := s.setInputMessage id (.text d.message)
                { after with result := after.result.bind fun _ => after.store.node id }
              else s.replacePayload n p
            | _ => s.replacePayload n p

/-! ### Edges -/

/-- The given id, or a new one if none is given or it is empty. -/
def edgeIdOr (t : Tokens) (source target : NodeId) (id : Option EdgeId) : EdgeId × Tokens :=
  match id with
  | some e => if e = "" then fresh else (e, t)
  | none => fresh
where
  /-- A new id: both ends and a token. -/
  fresh : EdgeId × Tokens :=
    let (token, t) := t.take
    ("edge-" ++ source ++ "-" ++ target ++ "-" ++ Tokens.short 8 token, t)

/-- Draws an edge if the connection check allows it; the answer is the refusal, if there is
one. -/
def proposeEdge (source target : NodeId) (id : Option EdgeId := none) :
    Outcome (Option Refusal) :=
  match s.node source, s.node target with
  | .error e, _ => s.fail e
  | _, .error e => s.fail e
  | .ok a, .ok b =>
    match checkConnection a b s.graph.edges with
    | some r => s.answer (some r)
    | none =>
      -- a token is taken only for an edge that is drawn
      let (id, tokens) := edgeIdOr s.tokens source target id
      let g : Graph := { s.graph with edges := s.graph.edges ++ [{ id, source, target }] }
      resyncThen (withGraph { s with tokens } g) none

/-- Removes the edges with an id. -/
def removeEdge (id : EdgeId) : Outcome Unit :=
  let edges := s.graph.edges.filter (·.id ≠ id)
  if edges.length = s.graph.edges.length then s.fail (.edgeNotFound id)
  else (s.withGraph { s.graph with edges }).resyncThen ()

end Store

end AgentFlow

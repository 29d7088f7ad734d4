import AgentFlow.Format.Payload
import AgentFlow.Workflow.Graph

/-!
# Saved form of nodes, edges, graphs and documents

A node names its kind twice, once beside its payload and once inside.  Files may leave out either
of them; `Node.align` fills in the missing one before the node is read.

## Main definitions

* `Node.align`, `Node.decode`, `Node.encode`; `Node.wrap` puts a payload into a node.
* `Edge.decode`, `Graph.decode`, `Document.decode` and the encoders.
* `Json.withoutNulls`: a saved form without its `null` members.
-/

namespace AgentFlow

namespace Position

/-- Reads a position. -/
def decode (ch : Channel) : Json → Checked Position :=
  Read.record ch "NodePosition" fun m =>
    (fun x y => { x, y }) <$>
      Read.required m (.same "x") Read.number <*>
      Read.required m (.same "y") Read.number

/-- The saved form of a position. -/
def encode (p : Position) : Json := .object [("x", .float p.x), ("y", .float p.y)]

/-- The saved form of a position that may be absent. -/
def encode? : Option Position → Json
  | none => .null
  | some p => p.encode

end Position

namespace Node

/-! ### Alignment of the two kinds -/

/-- A value that is there and not `null`. -/
def present? : Option Json → Option Json
  | some .null => none
  | v => v

/-- What a payload names as its kind for the purpose of alignment; the editor's spelling comes
first. -/
def payloadTag? (payload : Members) : Option Json :=
  match payload.get? FieldName.nodeType.editor with
  | some v => some v
  | none => payload.get? FieldName.nodeType.plain

/-- Fills in the kind of the payload from the kind of the node, or the other way round, where
only one of them is given.  A node without a payload gets an empty one. -/
def align (m : Members) : Members :=
  match m.get? "data", present? (m.get? "type") with
  | some (.object payload), some kind =>
    match present? (payloadTag? payload) with
    | none => m.put "data" (.object (Members.put payload FieldName.nodeType.editor kind))
    | some _ => m
  | some (.object payload), none =>
    match present? (payloadTag? payload) with
    | some tag => m.put "type" tag
    | none => m
  | none, some kind => m.put "data" (.object [(FieldName.nodeType.editor, kind)])
  | some .null, some kind => m.put "data" (.object [(FieldName.nodeType.editor, kind)])
  | _, _ => m

/-- A node, if the kind beside its payload is the kind of the payload; `v` is the value that the
parts were read from. -/
def ofParts (v : Json) (id : NodeId) (kind : Kind) (position : Option Position)
    (payload : Payload) : Checked Node :=
  if payload.kind = kind then .valid { id, position, payload }
  else .refuse (.kindMismatch id kind.name payload.kind.name) v

/-- Reads the members of a node whose kinds are aligned; `v` is the node as it was given. -/
def read (ch : Channel) (v : Json) (m : Members) : Checked Node :=
  Checked.andThen
    ((fun id kind position payload => (id, kind, position, payload)) <$>
      Read.required m (.same "id") Read.text <*>
      Read.required m (.same "type") (Read.choice Kind) <*>
      Read.optional m (.same "position") none (Read.nullable (Position.decode ch)) <*>
      Read.required m (.same "data") (Payload.decode ch))
    fun (id, kind, position, payload) => ofParts v id kind position payload

/-- Reads a node. -/
def decode (ch : Channel) : Json → Checked Node :=
  Read.record ch "WorkflowNode" fun m => read ch (.object m) (align m)

/-- Puts a finished payload into a node.  The kind is taken from the payload if none is given;
`none` stands for a record that is no payload. -/
def wrap (id : Json) (kind : Option Json) (payload : Option Payload) : Checked Node :=
  let given : Json :=
    match present? kind, payload with
    | some v, _ => v
    | none, some p => .text p.kind.name
    | none, none => .null
  let whole : Json := .object [("id", id), ("type", given)]
  let content : Checked Payload :=
    match payload with
    | some p => .valid p
    | none => .refuse .untagged whole
  Checked.andThen
    ((fun id kind payload => (id, kind, payload)) <$>
      (Read.text id).under (.key "id") <*>
      (Read.choice Kind given).under (.key "type") <*>
      content.under (.key "data"))
    fun (id, kind, payload) => ofParts whole id kind none payload

/-- The saved form of a node. -/
def encode (sp : Spelling) (n : Node) : Json :=
  .object [
    ("id", .text n.id),
    ("type", .text n.kind.name),
    ("position", Position.encode? n.position),
    ("data", n.payload.encode sp)]

end Node

namespace Edge

/-- Reads an edge. -/
def decode (ch : Channel) : Json → Checked Edge :=
  Read.record ch "WorkflowEdge" fun m =>
    (fun id source target => { id, source, target }) <$>
      Read.required m (.same "id") Read.text <*>
      Read.required m (.same "source") Read.text <*>
      Read.required m (.same "target") Read.text

/-- The saved form of an edge. -/
def encode (e : Edge) : Json :=
  .object [("id", .text e.id), ("source", .text e.source), ("target", .text e.target)]

end Edge

namespace Graph

/-- Reads the members of a graph. -/
def read (ch : Channel) (m : Members) : Checked Graph :=
  (fun nodes edges => { nodes, edges }) <$>
    Read.optional m (.same "nodes") [] (Read.items (Node.decode ch)) <*>
    Read.optional m (.same "edges") [] (Read.items (Edge.decode ch))

/-- Reads a graph. -/
def decode (ch : Channel) : Json → Checked Graph :=
  Read.record ch "WorkflowGraph" (read ch)

/-- The saved members of a graph. -/
def members (sp : Spelling) (g : Graph) : Members :=
  [("nodes", .list (g.nodes.map (Node.encode sp))), ("edges", .list (g.edges.map Edge.encode))]

/-- The saved form of a graph. -/
def encode (sp : Spelling) (g : Graph) : Json := .object (g.members sp)

end Graph

namespace FieldName

/-- The name of a workflow. -/
def workflowName : FieldName := ⟨"workflowName", "workflow_name"⟩

/-- The description of a workflow. -/
def workflowDescription : FieldName := ⟨"workflowDescription", "workflow_description"⟩

end FieldName

namespace Document

/-- Reads the members of a document. -/
def read (ch : Channel) (m : Members) : Checked Document :=
  (fun graph name description => { graph, name, description }) <$>
    Graph.read ch m <*>
    Read.optional m .workflowName defaultWorkflowName Read.text <*>
    Read.optional m .workflowDescription "" Read.text

/-- Reads a document. -/
def decode (ch : Channel) : Json → Checked Document :=
  Read.record ch "WorkflowDocument" (read ch)

/-- The saved form of a document. -/
def encode (sp : Spelling) (d : Document) : Json :=
  .object (d.graph.members sp ++ [
    (FieldName.workflowName.spell sp, .text d.name),
    (FieldName.workflowDescription.spell sp, .text d.description)])

end Document

namespace Json

mutual

/-- The value without members that are `null`, at every depth. -/
def withoutNulls : Json → Json
  | .list items => .list (withoutNullsItems items)
  | .object members => .object (withoutNullsMembers members)
  | v => v

/-- The items without members that are `null`. -/
def withoutNullsItems : List Json → List Json
  | [] => []
  | v :: vs => withoutNulls v :: withoutNullsItems vs

/-- The members that are not `null`, themselves without such members. -/
def withoutNullsMembers : List (String × Json) → List (String × Json)
  | [] => []
  | (k, v) :: ms =>
    if v.isNull then withoutNullsMembers ms
    else (k, withoutNulls v) :: withoutNullsMembers ms

end

end Json

end AgentFlow

import AgentFlow.Number.Binary64
import AgentFlow.Workflow.Payload

/-!
# Workflow graphs

Nodes and edges in the order in which they were drawn.  A graph is plain data: ids may repeat,
edges may end nowhere and run in circles.  Where an id repeats, `firstNode?` gives the first node
with it and `node?` the last.

## Main definitions

* `Position`, `Node`, `Edge`, `Graph`, `Document`.
* `Graph.firstNode?`, `Graph.node?`, `Graph.index`: nodes by id.
* `UnresolvedReference`, `Graph.checkReferences`: edges that end nowhere.
* `Link`, `Graph.links`: edges together with the nodes at both ends.
* `Edge.unvisited`: the edges that a search has still to follow.
-/

namespace AgentFlow

/-- The id of a node. -/
abbrev NodeId := String

/-- The id of an edge. -/
abbrev EdgeId := String

/-- Where the editor shows a node. -/
structure Position where
  /-- Distance from the left. -/
  x : Binary64
  /-- Distance from the top. -/
  y : Binary64
  deriving DecidableEq, Repr, Inhabited

/-- A node of a workflow. -/
structure Node where
  /-- The id by which edges refer to the node. -/
  id : NodeId
  /-- Where the editor shows the node. -/
  position : Option Position := none
  /-- What the node holds. -/
  payload : Payload
  deriving DecidableEq, Repr, Inhabited

/-- The kind of a node. -/
def Node.kind (n : Node) : Kind := n.payload.kind

/-- The display name of a node. -/
def Node.name (n : Node) : String := n.payload.heading.name

/-- A directed edge between two nodes. -/
structure Edge where
  /-- The id of the edge. -/
  id : EdgeId
  /-- The id of the node it leaves. -/
  source : NodeId
  /-- The id of the node it enters. -/
  target : NodeId
  deriving DecidableEq, Repr, Inhabited

/-- The nodes and edges of a workflow. -/
structure Graph where
  /-- The nodes, in order. -/
  nodes : List Node := []
  /-- The edges, in order. -/
  edges : List Edge := []
  deriving DecidableEq, Repr, Inhabited

/-- The name of a workflow that was not given one. -/
def defaultWorkflowName : String := "My Workflow"

/-- A saved workflow: a graph with a name and a description. -/
structure Document where
  /-- The graph. -/
  graph : Graph := {}
  /-- Name of the workflow. -/
  name : String := defaultWorkflowName
  /-- Description of the workflow. -/
  description : String := ""
  deriving DecidableEq, Repr, Inhabited

/-- An id that no node has, and the edge that refers to it, if there is one. -/
structure UnresolvedReference where
  /-- The id that no node has. -/
  node : NodeId
  /-- The edge that refers to it. -/
  edge : Option EdgeId := none
  deriving DecidableEq, Repr

/-- The message for users; an edge with an empty id is not mentioned. -/
def UnresolvedReference.message (r : UnresolvedReference) : String :=
  match r.edge with
  | none => "Unknown node: " ++ r.node
  | some e =>
    if e = "" then "Unknown node: " ++ r.node
    else "Edge " ++ e ++ " references unknown node: " ++ r.node

/-- An edge together with the nodes at both ends. -/
structure Link where
  /-- The edge. -/
  edge : Edge
  /-- The node it leaves. -/
  source : Node
  /-- The node it enters. -/
  target : Node

namespace Graph

variable (g : Graph)

/-- The ids of the nodes, in order. -/
def nodeIds : List NodeId := g.nodes.map (·.id)

/-- The first node with an id. -/
def firstNode? (id : NodeId) : Option Node := g.nodes.find? (·.id = id)

/-- The last node with an id. -/
def node? (id : NodeId) : Option Node := g.nodes.reverse.find? (·.id = id)

/-- The first node with an id, or the complaint that there is none. -/
def requireNode (id : NodeId) (edge : Option EdgeId := none) : Except UnresolvedReference Node :=
  match g.firstNode? id with
  | some n => .ok n
  | none => .error { node := id, edge }

/-- Every id with the last node that has it, in the order of the first occurrence. -/
def index : List (NodeId × Node) :=
  g.nodeIds.eraseDups.filterMap fun id => (g.node? id).map fun n => (id, n)

/-- The nodes of a kind, in order. -/
def nodesOfKind (k : Kind) : List Node := g.nodes.filter (·.kind = k)

/-- The edges that leave a node, in order. -/
def outgoing (id : NodeId) : List Edge := g.edges.filter (·.source = id)

/-- The edges that enter a node, in order. -/
def incoming (id : NodeId) : List Edge := g.edges.filter (·.target = id)

/-- Complains about an end of an edge that is no node's id, the source before the target. -/
def checkEdge (e : Edge) : Except UnresolvedReference Unit :=
  if e.source ∉ g.nodeIds then .error { node := e.source, edge := some e.id }
  else if e.target ∉ g.nodeIds then .error { node := e.target, edge := some e.id }
  else .ok ()

/-- Complains about the first edge that ends nowhere. -/
def checkReferences : Except UnresolvedReference Unit :=
  g.edges.forM g.checkEdge

/-- The link of an edge, or the complaint about one of its ends. -/
def link (e : Edge) : Except UnresolvedReference Link :=
  match g.node? e.source, g.node? e.target with
  | none, _ => .error { node := e.source, edge := some e.id }
  | _, none => .error { node := e.target, edge := some e.id }
  | some s, some t => .ok { edge := e, source := s, target := t }

/-- The links of all edges, or the complaint about the first edge that ends nowhere. -/
def links : Except UnresolvedReference (List Link) :=
  g.edges.mapM g.link

end Graph

/-! ### Searching along edges -/

/-- The edges that leave a node not visited so far. -/
def Edge.unvisited (edges : List Edge) (visited : List NodeId) : List Edge :=
  edges.filter (·.source ∉ visited)

/-- Visiting a node for the first time takes away the edges that leave it, and no others. -/
theorem Edge.length_unvisited_cons (edges : List Edge) {visited : List NodeId} {id : NodeId}
    (fresh : id ∉ visited) :
    (Edge.unvisited edges (id :: visited)).length + (edges.filter (·.source = id)).length =
      (Edge.unvisited edges visited).length := by
  induction edges with
  | nil => rfl
  | cons e edges ih =>
    simp only [Edge.unvisited, List.filter_cons, List.mem_cons, not_or, decide_eq_true_eq] at ih ⊢
    by_cases hid : e.source = id
    · rw [if_neg (fun h => h.1 hid), if_pos hid, if_pos (hid ▸ fresh), List.length_cons,
        List.length_cons]
      omega
    · rw [if_neg hid]
      by_cases hvisited : e.source ∈ visited
      · rw [if_neg (fun h => h.2 hvisited), if_neg (not_not_intro hvisited)]
        exact ih
      · rw [if_pos ⟨hid, hvisited⟩, if_pos hvisited, List.length_cons, List.length_cons]
        omega

/-- A document with its graph changed. -/
def Document.withGraph (d : Document) (g : Graph) : Document := { d with graph := g }

end AgentFlow

import AgentFlow.Connection.Rule

/-!
# Checking a whole workflow

A loaded graph need not have been drawn edge by edge.  `Graph.findings` lists what is wrong with it,
check by check.

## Main definitions

* `Finding`, `Finding.code`, `Finding.message`, `Finding.node?`, `Finding.edge?`.
* `Graph.findings`: everything that is wrong with a graph.
-/

namespace AgentFlow

/-- Something that is wrong with a graph. -/
inductive Finding where
  /-- The id of a node occurs again. -/
  | duplicateNode (id : NodeId)
  /-- The id of an edge occurs again. -/
  | duplicateEdge (id : EdgeId)
  /-- An edge leaves no node. -/
  | unknownSource (edge : EdgeId) (source : NodeId)
  /-- An edge enters no node. -/
  | unknownTarget (edge : EdgeId) (target : NodeId)
  /-- An edge joins kinds that do not fit. -/
  | incompatible (edge : EdgeId) (source target : Kind)
  /-- More than one edge leaves an input. -/
  | inputFan (id : NodeId)
  /-- More than one edge enters a runner. -/
  | runnerFan (id : NodeId)
  /-- A node lies on a circle or behind one. -/
  | cyclic (id : NodeId)
  deriving DecidableEq, Repr

namespace Finding

/-- The code of a finding. -/
def code : Finding → String
  | .duplicateNode _ => "DUPLICATE_NODE_ID"
  | .duplicateEdge _ => "DUPLICATE_EDGE_ID"
  | .unknownSource _ _ => "INVALID_EDGE_SOURCE"
  | .unknownTarget _ _ => "INVALID_EDGE_TARGET"
  | .incompatible _ _ _ => Reason.incompatibleKinds.code
  | .inputFan _ => Reason.fanLimitExceeded.code
  | .runnerFan _ => Reason.fanLimitExceeded.code
  | .cyclic _ => Reason.cyclicConnection.code

/-- The message of a finding. -/
def message : Finding → String
  | .duplicateNode id => "Duplicate node id: " ++ id
  | .duplicateEdge id => "Duplicate edge id: " ++ id
  | .unknownSource _ s => "Edge references unknown source node: " ++ s
  | .unknownTarget _ t => "Edge references unknown target node: " ++ t
  | .incompatible _ s t => s.incompatibleMessage t
  | .inputFan id => "Input node " ++ id ++ " has more than one outgoing connection"
  | .runnerFan id => "Runner node " ++ id ++ " has more than one incoming connection"
  | .cyclic id => "Node " ++ id ++ " is part of or downstream of a cycle"

/-- The node that a finding is about. -/
def node? : Finding → Option NodeId
  | .duplicateNode id => some id
  | .inputFan id => some id
  | .runnerFan id => some id
  | .cyclic id => some id
  | _ => none

/-- The edge that a finding is about. -/
def edge? : Finding → Option EdgeId
  | .duplicateEdge id => some id
  | .unknownSource e _ => some e
  | .unknownTarget e _ => some e
  | .incompatible e _ _ => some e
  | _ => none

end Finding

/-- The entries of a list that occurred before, in order. -/
def repeats (seen : List String) : List String → List String
  | [] => []
  | s :: rest => if s ∈ seen then s :: repeats seen rest else repeats (s :: seen) rest

namespace Graph

variable (g : Graph)

/-- What is wrong with an edge: its ends, or else the kinds at its ends. -/
def edgeFindings (e : Edge) : List Finding :=
  match g.node? e.source, g.node? e.target with
  | none, none => [.unknownSource e.id e.source, .unknownTarget e.id e.target]
  | none, some _ => [.unknownSource e.id e.source]
  | some _, none => [.unknownTarget e.id e.target]
  | some s, some t => if s.kind.mayConnect t.kind then [] else [.incompatible e.id s.kind t.kind]

/-- The inputs that more than one edge leaves. -/
def inputFans : List Finding :=
  ((g.nodesOfKind .input).filter fun n => 1 < (g.outgoing n.id).length).map fun n => .inputFan n.id

/-- The runners that more than one edge enters. -/
def runnerFans : List Finding :=
  ((g.nodesOfKind .runner).filter fun n => 1 < (g.incoming n.id).length).map
    fun n => .runnerFan n.id

/-- Everything that is wrong with a graph. -/
def findings : List Finding :=
  (repeats [] g.nodeIds).map .duplicateNode ++
    (repeats [] (g.edges.map (·.id))).map .duplicateEdge ++
    g.edges.flatMap g.edgeFindings ++
    g.inputFans ++
    g.runnerFans ++
    g.cyclicNodes.map .cyclic

end Graph

end AgentFlow

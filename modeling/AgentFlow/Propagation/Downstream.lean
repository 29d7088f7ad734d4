import AgentFlow.Workflow.Graph

/-!
# Runners downstream of a node

A message travels along edges, through agents, until it reaches runners.  The search goes depth
first and keeps the edges still to be followed, one list for every agent on the current path.

## Main definitions

* `Graph.walk`: the search from a stack of lists of edges.
* `Graph.downstream`: the runners downstream of a node, in the order in which they are met.
-/

namespace AgentFlow

namespace Graph

variable (g : Graph)

/-- The nodes that were not visited so far. -/
def unvisited (visited : List NodeId) : List Node :=
  g.nodes.filter (·.id ∉ visited)

/-- Visiting a node for the first time makes the unvisited ones fewer. -/
theorem length_unvisited_cons_lt {g : Graph} {visited : List NodeId} {n : Node}
    (mem : n ∈ g.nodes) (fresh : n.id ∉ visited) :
    (g.unvisited (n.id :: visited)).length < (g.unvisited visited).length := by
  have hsub : g.unvisited (n.id :: visited) = (g.unvisited visited).filter (·.id ≠ n.id) := by
    simp only [unvisited, List.filter_filter]
    congr 1
    funext x
    simp [List.mem_cons, not_or]
  rw [hsub]
  exact List.length_filter_lt_length_iff_exists.2
    ⟨n, by simpa [unvisited, mem] using fresh, by simp⟩

/-- A node found by its id is a node of the graph. -/
theorem mem_of_node? {g : Graph} {id : NodeId} {n : Node} (h : g.node? id = some n) :
    n ∈ g.nodes :=
  List.mem_reverse.1 (List.mem_of_find?_eq_some h)

/-- The work left in a stack: the edges, and one for every list. -/
def stackSize (stack : List (List Edge)) : Nat :=
  stack.flatten.length + stack.length

/-- Follows the edges on the stack.  A runner is noted where it is met first; an agent that was not
visited before is entered at once; an edge to a node of another kind leads no further. -/
def walk (visited runners : List NodeId) :
    List (List Edge) → Except UnresolvedReference (List NodeId)
  | [] => .ok runners
  | [] :: stack => walk visited runners stack
  | (e :: es) :: stack =>
    match _h : g.node? e.target with
    | none => .error { node := e.target, edge := some e.id }
    | some n =>
      if n.kind = .runner then
        walk visited (if n.id ∈ runners then runners else runners ++ [n.id]) (es :: stack)
      -- the start counts as visited, so that a circle does not lead back into it
      else if n.kind = .agent ∧ n.id ∉ visited then
        walk (n.id :: visited) runners (g.outgoing n.id :: es :: stack)
      else walk visited runners (es :: stack)
-- the edges of an agent that is entered are followed now and never again
termination_by stack =>
  (Edge.unvisited g.edges visited).length + (g.unvisited visited).length + stackSize stack
decreasing_by
  · simp [stackSize]
  · simp [stackSize]
  · rename_i fresh
    have hedges := Edge.length_unvisited_cons g.edges fresh.2
    have hnodes := length_unvisited_cons_lt (mem_of_node? _h) fresh.2
    simp only [stackSize, outgoing, List.flatten_cons, List.length_append, List.length_cons]
    omega
  · simp [stackSize]

/-- The runners downstream of a node. -/
def downstream (id : NodeId) : Except UnresolvedReference (List NodeId) := do
  let _ ← g.requireNode id
  g.walk [id] [] [g.outgoing id]

end Graph

end AgentFlow

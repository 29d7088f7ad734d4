import AgentFlow.Workflow.Graph

/-!
# Cycles

Two questions about circles of edges.  Before an edge is drawn: does its target already lead back to
its source?  In a whole graph: which nodes lie on a circle or behind one?

## Main definitions

* `Edge.targetsOf`: the ends of the edges that leave a node.
* `leadsTo`: depth-first search for a node.
* `createsCycle`: an edge would close a circle.
* `Degrees`, `relax`, `settle`: takes nodes away that no edge enters, with their edges.
* `Graph.cyclicNodes`: the nodes on circles and behind them.
-/

namespace AgentFlow

/-- The ends of the edges that leave a node. -/
def Edge.targetsOf (edges : List Edge) (id : NodeId) : List NodeId :=
  (edges.filter (·.source = id)).map (·.target)

/-- Searches for a node along the edges, depth first, from the nodes on a stack. -/
def leadsTo (edges : List Edge) (goal : NodeId) (visited : List NodeId) : List NodeId → Bool
  | [] => false
  | id :: stack =>
    if id = goal then true
    else if id ∈ visited then leadsTo edges goal visited stack
    else leadsTo edges goal (id :: visited) (Edge.targetsOf edges id ++ stack)
-- the ends that are put on the stack are those of edges that are followed now and never again
termination_by stack => (Edge.unvisited edges visited).length + stack.length
decreasing_by
  · simp
  · rename_i fresh
    have h := Edge.length_unvisited_cons edges fresh
    simp only [Edge.targetsOf, List.length_append, List.length_map, List.length_cons]
    omega

/-- Drawing an edge from `source` to `target` would close a circle. -/
def createsCycle (source target : NodeId) (edges : List Edge) : Bool :=
  leadsTo edges source [] [target]

/-! ### Settling a graph

A node that no edge enters lies on no circle.  It is settled, and its edges are taken away, which
may free other nodes.  What is never settled lies on a circle or behind one. -/

/-- The edges with a node at both ends. -/
def Graph.innerEdges (g : Graph) : List Edge :=
  g.edges.filter fun e => e.source ∈ g.nodeIds ∧ e.target ∈ g.nodeIds

/-- How many edges still enter each node. -/
abbrev Degrees := List (NodeId × Nat)

namespace Degrees

/-- One edge into a node is taken away. -/
def lower (d : Degrees) (id : NodeId) : Degrees :=
  d.map fun p => if p.1 = id then (p.1, p.2 - 1) else p

/-- The nodes that no edge enters, in order. -/
def free (d : Degrees) : List NodeId :=
  (d.filter (·.2 = 0)).map (·.1)

/-- The number of nodes that some edge enters. -/
def blocked (d : Degrees) : Nat :=
  d.countP (0 < ·.2)

end Degrees

/-- The number of edges into each node of a graph. -/
def Graph.degrees (g : Graph) : Degrees :=
  g.nodeIds.eraseDups.map fun id => (id, g.innerEdges.countP (·.target = id))

/-- Takes away an edge into a node; if it was the last one, the node joins the queue. -/
def relax (s : Degrees × List NodeId) (id : NodeId) : Degrees × List NodeId :=
  (s.1.lower id, if s.1.lookup id = some 1 then s.2 ++ [id] else s.2)

@[simp] theorem Degrees.lower_cons (k : NodeId) (n : Nat) (d : Degrees) (id : NodeId) :
    Degrees.lower ((k, n) :: d) id = (k, if k = id then n - 1 else n) :: d.lower id := by
  by_cases h : k = id <;> simp [lower, h]

@[simp] theorem Degrees.blocked_cons (k : NodeId) (n : Nat) (d : Degrees) :
    Degrees.blocked ((k, n) :: d) = d.blocked + if 0 < n then 1 else 0 := by
  simp [blocked, List.countP_cons]

/-- Lowering never blocks a node. -/
theorem Degrees.blocked_lower_le (d : Degrees) (id : NodeId) :
    (d.lower id).blocked ≤ d.blocked := by
  induction d with
  | nil => exact Nat.le_refl _
  | cons p d ih =>
    obtain ⟨k, n⟩ := p
    rw [lower_cons, blocked_cons, blocked_cons]
    have hn : (if k = id then n - 1 else n) ≤ n := by split <;> omega
    generalize (if k = id then n - 1 else n) = m at hn
    split <;> split <;> omega

/-- Taking away the last edge into a node frees it. -/
theorem Degrees.blocked_lower_lt {d : Degrees} {id : NodeId} (h : d.lookup id = some 1) :
    (d.lower id).blocked < d.blocked := by
  induction d with
  | nil => simp at h
  | cons p d ih =>
    obtain ⟨k, n⟩ := p
    rw [lower_cons, blocked_cons, blocked_cons]
    by_cases hk : id = k
    · subst hk
      obtain rfl : n = 1 := by simpa using h
      have hle := blocked_lower_le d id
      simp only [if_true, Nat.sub_self, Nat.lt_irrefl, if_false, Nat.zero_lt_one]
      omega
    · have hk' : (id == k) = false := by simpa using hk
      have hlt := ih (by simpa [List.lookup_cons, hk'] using h)
      rw [if_neg (Ne.symm hk)]
      omega

/-- Taking away an edge leaves no more work than there was. -/
theorem work_relax_le (s : Degrees × List NodeId) (id : NodeId) :
    (relax s id).2.length + (relax s id).1.blocked ≤ s.2.length + s.1.blocked := by
  by_cases h : s.1.lookup id = some 1
  · have hlt := Degrees.blocked_lower_lt h
    simp only [relax, h, if_true, List.length_append, List.length_singleton]
    omega
  · have hle := Degrees.blocked_lower_le s.1 id
    simp only [relax, h, if_false]
    omega

/-- Taking away several edges leaves no more work than there was. -/
theorem work_foldl_relax_le (ids : List NodeId) (s : Degrees × List NodeId) :
    (ids.foldl relax s).2.length + (ids.foldl relax s).1.blocked ≤ s.2.length + s.1.blocked := by
  induction ids generalizing s with
  | nil => exact Nat.le_refl _
  | cons id ids ih => exact Nat.le_trans (ih (relax s id)) (work_relax_le s id)

/-- Settles the nodes on the queue, first come first served, and takes their edges away. -/
def settle (edges : List Edge) (degrees : Degrees) (settled : List NodeId) :
    List NodeId → List NodeId
  | [] => settled
  | id :: queue =>
    let s := (Edge.targetsOf edges id).foldl relax (degrees, queue)
    settle edges s.1 (id :: settled) s.2
termination_by queue => queue.length + degrees.blocked
decreasing_by
  have h := work_foldl_relax_le (Edge.targetsOf edges id) (degrees, queue)
  simp only [List.length_cons] at h ⊢
  omega

/-- The ids of the nodes that are never settled, in order: those on circles of edges and behind
them. -/
def Graph.cyclicNodes (g : Graph) : List NodeId :=
  let settled := settle g.innerEdges g.degrees [] g.degrees.free
  g.nodeIds.filter (· ∉ settled)

end AgentFlow

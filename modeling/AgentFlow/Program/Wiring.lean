import AgentFlow.Workflow.Graph

/-!
# Wiring of agents

Which tools, guardrails and other agents an agent is joined to, read off the links of a graph in
the order of the edges, and the order in which agents are defined.

## Main definitions

* `Wiring.handoffs`, `Wiring.sources`, `Wiring.runnerAgent?`.
* `Wiring.arrange`: agents in an order in which handoff targets come first.
-/

namespace AgentFlow

namespace Wiring

/-- The agents that an agent hands off to, itself excepted, by the first edge that mentions
them. -/
def handoffs (links : List Link) (id : NodeId) : List NodeId :=
  ((links.filter fun l =>
    l.edge.source = id ∧ l.edge.target ≠ id ∧ l.target.kind = .agent).map (·.target.id)).eraseDups

/-- The nodes of a kind with an edge into a node, by the first such edge. -/
def sources (links : List Link) (id : NodeId) (k : Kind) : List Node :=
  ((links.filter fun l => l.edge.target = id ∧ l.source.kind = k).map (·.source)).eraseDups

/-- The agent that a runner runs: the source of its only incoming edge, if that is an agent. -/
def runnerAgent? (links : List Link) (id : NodeId) : Option NodeId :=
  match links.filter (·.edge.target = id) with
  | [l] => if l.source.kind = .agent then some l.source.id else none
  | _ => none

variable {α : Type}

/-- The entries with other ids. -/
def others (pending : List (NodeId × α)) (id : NodeId) : List (NodeId × α) :=
  pending.filter (·.1 ≠ id)

/-- Taking away an entry leaves fewer. -/
theorem length_others_lt {pending : List (NodeId × α)} {p : NodeId × α} (mem : p ∈ pending) :
    (others pending p.1).length < pending.length :=
  List.length_filter_lt_length_iff_exists.2 ⟨p, mem, by simp⟩

/-- Takes the first entry all of whose targets are done, again and again; where no entry is left
that could be taken, the rest follows as it stands.  Entries with one id are taken together. -/
def arrange (targets : NodeId → List NodeId) (done : List NodeId) (pending : List (NodeId × α)) :
    List (NodeId × α) :=
  match _h : pending.find? fun p => (targets p.1).all (· ∈ done) with
  | none => pending
  | some p => p :: arrange targets (p.1 :: done) (others pending p.1)
termination_by pending.length
decreasing_by exact length_others_lt (List.mem_of_find?_eq_some _h)

end Wiring

end AgentFlow

import AgentFlow.Proofs.Cycle

/-!
# Walks and circuits

The two searches for circles against walks that are written out edge by edge.  A circuit is a walk
with an edge in it that ends where it starts.  An edge about to be drawn is refused exactly if it
would lie on a circuit, and a node of a whole graph is blamed exactly if a walk leads to it from a
circuit.

## Main definitions

* `Edge.Walk`: a list of edges that leads from one node to another.
* `Edge.OnCircuit`: some circuit passes an edge.
* `Graph.Blamed`: a walk leads from a circuit to a node.

## Main results

* `Edge.leads_iff_exists_walk`: a path leads to a node exactly if a walk does.
* `Edge.onCircuit_iff`: a circuit passes an edge exactly if its target leads to its source.
* `createsCycle_iff_reachable`: **an edge is refused exactly if it would lie on a circuit.**
* `Graph.cyclicNodes_eq_filter_blamed`: **exactly the nodes behind circuits are blamed, in order.**
-/

namespace AgentFlow

open Relation

namespace Edge

variable {edges : List Edge} {a b c : NodeId} {e : Edge} {es fs : List Edge}

/-! ### Walks -/

/-- The edges of the second list, one after the other, lead from the first node to the last. -/
inductive Walk (edges : List Edge) : NodeId → List Edge → NodeId → Prop where
  /-- No edge leads from a node to itself. -/
  | nil (a : NodeId) : Walk edges a [] a
  /-- An edge leads to where the rest of the walk starts. -/
  | cons {e : Edge} {es : List Edge} {b : NodeId} (he : e ∈ edges)
      (rest : Walk edges e.target es b) : Walk edges e.source (e :: es) b

/-- A walk along two lists of edges is a walk along the one followed by a walk along the other. -/
theorem walk_append_iff :
    Walk edges a (es ++ fs) c ↔ ∃ b, Walk edges a es b ∧ Walk edges b fs c := by
  constructor
  · intro h
    induction es generalizing a with
    | nil => exact ⟨a, .nil a, h⟩
    | cons e es ih =>
      obtain _ | ⟨he, hrest⟩ := h
      obtain ⟨b, hes, hfs⟩ := ih hrest
      exact ⟨b, .cons he hes, hfs⟩
  · rintro ⟨b, hes, hfs⟩
    induction hes with
    | nil a => exact hfs
    | cons he _ ih => exact .cons he (ih hfs)

/-- A walk that passes an edge comes to its source and goes on from its target. -/
theorem walk_append_cons_iff : Walk edges a (es ++ e :: fs) b ↔
    e ∈ edges ∧ Walk edges a es e.source ∧ Walk edges e.target fs b := by
  rw [walk_append_iff]
  constructor
  · rintro ⟨c, hes, _ | ⟨he, hfs⟩⟩
    exact ⟨he, hes, hfs⟩
  · rintro ⟨he, hes, hfs⟩
    exact ⟨e.source, hes, .cons he hfs⟩

theorem Walk.leads (h : Walk edges a es b) : Leads edges a b := by
  induction h with
  | nil a => exact .refl
  | cons he _ ih => exact .head ⟨_, he, rfl, rfl⟩ ih

/-- A path leads to a node exactly if a walk does.  A path says that the node can be reached, a walk
also lists the edges on the way. -/
theorem leads_iff_exists_walk : Leads edges a b ↔ ∃ es, Walk edges a es b := by
  constructor
  · intro h
    induction h using ReflTransGen.head_induction_on with
    | refl => exact ⟨[], .nil b⟩
    | head hjoins _ ih =>
      obtain ⟨e, he, rfl, rfl⟩ := hjoins
      obtain ⟨es, hes⟩ := ih
      exact ⟨e :: es, .cons he hes⟩
  · rintro ⟨es, hes⟩
    exact hes.leads

/-- A path with an edge in it leads to a node exactly if a walk with an edge in it does. -/
theorem transGen_iff_exists_walk :
    TransGen (Joins edges) a b ↔ ∃ es, es ≠ [] ∧ Walk edges a es b := by
  rw [TransGen.head'_iff]
  constructor
  · rintro ⟨c, ⟨e, he, rfl, rfl⟩, hpath⟩
    obtain ⟨es, hes⟩ := leads_iff_exists_walk.1 hpath
    exact ⟨e :: es, List.cons_ne_nil e es, .cons he hes⟩
  · rintro ⟨es, hne, _ | ⟨he, hrest⟩⟩
    · exact absurd rfl hne
    · exact ⟨_, ⟨_, he, rfl, rfl⟩, hrest.leads⟩

/-! ### Circuits -/

/-- Some walk passes the edge and ends where it starts. -/
def OnCircuit (edges : List Edge) (e : Edge) : Prop :=
  ∃ a es, e ∈ es ∧ Walk edges a es a

/-- A circuit passes an edge exactly if its target leads to its source. -/
theorem onCircuit_iff : OnCircuit edges e ↔ e ∈ edges ∧ Leads edges e.target e.source := by
  constructor
  · rintro ⟨a, es, hmem, hwalk⟩
    -- behind the edge the circuit goes on to its start, and from there to the edge
    obtain ⟨before, after, rfl⟩ := List.append_of_mem hmem
    obtain ⟨he, hbefore, hafter⟩ := walk_append_cons_iff.1 hwalk
    exact ⟨he, hafter.leads.trans hbefore.leads⟩
  · rintro ⟨he, hback⟩
    obtain ⟨es, hes⟩ := leads_iff_exists_walk.1 hback
    exact ⟨e.source, e :: es, List.mem_cons_self, .cons he hes⟩

/-- A new edge lies on a circuit exactly if the other edges lead from its target to its source. -/
theorem onCircuit_append_self_iff :
    OnCircuit (edges ++ [e]) e ↔ Leads edges e.target e.source := by
  rw [onCircuit_iff, leads_append_singleton]
  constructor
  · rintro ⟨-, hback | ⟨hback, -⟩⟩
    · exact hback
    · exact hback
  · intro hback
    exact ⟨by simp, Or.inl hback⟩

end Edge

/-- **An edge is refused exactly if it would lie on a circuit.**  The search ends for all edges,
also where they run in circles, are repeated or end nowhere.  It finds exactly the paths from the
target of the new edge to its source along the other edges, and these are what closes a circuit
through the new edge, whatever its id. -/
theorem createsCycle_iff_reachable (source target : NodeId) (edges : List Edge) :
    (createsCycle source target edges = true ↔ ReflTransGen (Edge.Joins edges) target source) ∧
      ∀ id, createsCycle source target edges = true ↔
        Edge.OnCircuit (edges ++ [⟨id, source, target⟩]) ⟨id, source, target⟩ := by
  refine ⟨createsCycle_eq_true_iff, fun id => ?_⟩
  rw [createsCycle_eq_true_iff, Edge.onCircuit_append_self_iff]

/-! ### Nodes behind circuits -/

namespace Edge

variable {edges : List Edge} {v : NodeId}

instance (edges : List Edge) (a b : NodeId) : Decidable (Leads edges a b) :=
  decidable_of_iff (createsCycle b a edges = true) createsCycle_eq_true_iff

/-- A node lies behind a circle exactly if it lies behind an edge whose target leads back. -/
theorem behind_iff_exists_edge :
    Behind edges v ↔ ∃ e ∈ edges, Leads edges e.target e.source ∧ Leads edges e.source v := by
  constructor
  · rintro ⟨c, hc, hcv⟩
    obtain ⟨b, ⟨e, he, rfl, rfl⟩, hback⟩ := TransGen.head'_iff.1 hc
    exact ⟨e, he, hback, hcv⟩
  · rintro ⟨e, he, hback, hev⟩
    exact ⟨e.source, TransGen.head' ⟨e, he, rfl, rfl⟩ hback, hev⟩

instance (edges : List Edge) (v : NodeId) : Decidable (Behind edges v) :=
  decidable_of_iff _ behind_iff_exists_edge.symm

end Edge

namespace Graph

variable {g : Graph} {v : NodeId}

/-- A walk leads to the node from a node on a circuit, along edges that have both their ends. -/
def Blamed (g : Graph) (v : NodeId) : Prop :=
  ∃ c ∈ g.nodeIds, (∃ round, round ≠ [] ∧ Edge.Walk g.innerEdges c round c) ∧
    ∃ way, Edge.Walk g.innerEdges c way v

theorem blamed_iff_behind : g.Blamed v ↔ Edge.Behind g.innerEdges v := by
  constructor
  · rintro ⟨c, -, hround, hway⟩
    exact ⟨c, Edge.transGen_iff_exists_walk.2 hround, Edge.leads_iff_exists_walk.2 hway⟩
  · rintro ⟨c, hround, hway⟩
    obtain ⟨_, ⟨e, he, rfl, -⟩, -⟩ := TransGen.head'_iff.1 hround
    exact ⟨e.source, (mem_innerEdges.1 he).2.1, Edge.transGen_iff_exists_walk.1 hround,
      Edge.leads_iff_exists_walk.1 hway⟩

instance (g : Graph) (v : NodeId) : Decidable (g.Blamed v) :=
  decidable_of_iff _ blamed_iff_behind.symm

/-- **Exactly the nodes behind circuits are blamed, in order.**  Ids may be repeated, and then they
are blamed each time; edges may be repeated, end nowhere or lead from a node to itself. -/
theorem cyclicNodes_eq_filter_blamed (g : Graph) :
    g.cyclicNodes = (g.nodes.map (·.id)).filter fun v => g.Blamed v := by
  have hkeeps : ∀ v ∈ g.nodeIds,
      (v ∉ settle g.innerEdges g.degrees [] g.degrees.free ↔ g.Blamed v) := by
    intro v hv
    have hmem := mem_cyclicNodes_iff (g := g) (v := v)
    rw [← blamed_iff_behind] at hmem
    simpa [cyclicNodes, hv] using hmem
  exact List.filter_congr fun v hv => decide_eq_decide.2 (hkeeps v hv)

/-- Two nodes hand off to each other and one of them to a third; the edge that comes from nowhere
and the node in front of the circle are not to blame. -/
example :
    let node := fun id => (⟨id, none, .agent {}⟩ : Node)
    Graph.cyclicNodes
      { nodes := [node "a", node "b", node "c", node "d", node "b"]
        edges := [⟨"1", "a", "b"⟩, ⟨"2", "b", "c"⟩, ⟨"3", "c", "b"⟩, ⟨"4", "c", "d"⟩,
          ⟨"5", "gone", "a"⟩] } = ["b", "c", "d", "b"] := by
  decide +kernel

end Graph
end AgentFlow

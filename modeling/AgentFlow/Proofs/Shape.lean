import AgentFlow.Proofs.Bookkeeping
import AgentFlow.Workflow.Graph

/-!
# Lookups and shapes

Nodes found by their ids, and what remains of a graph if payloads are forgotten.  Most rules about a
graph only look at its shape: the ids and kinds of its nodes, and its edges.

## Main definitions

* `Graph.firstKind?`: the kind of the first node with an id.
* `Graph.Closed`: every edge ends at nodes.
* `Graph.shape`, `Graph.SameShape`: ids and kinds, and graphs that differ in nothing but the rest
  of their payloads.

## Main results

* `Graph.checkReferences_eq_ok_iff`: the check of the references accepts exactly the closed graphs.
* `Graph.node?_eq_some_iff`, `Graph.firstNode?_eq_some_iff`: where no id is repeated, both lookups
  find the node with the id.
-/

namespace AgentFlow
namespace Graph

variable {g h : Graph} {id : NodeId} {n : Node}

/-! ### Nodes by id -/

theorem mem_nodeIds : id ∈ g.nodeIds ↔ ∃ n ∈ g.nodes, n.id = id := by
  simp [nodeIds]

theorem id_mem_nodeIds (hn : n ∈ g.nodes) : n.id ∈ g.nodeIds :=
  mem_nodeIds.2 ⟨n, hn, rfl⟩

theorem firstNode?_eq_none_iff : g.firstNode? id = none ↔ id ∉ g.nodeIds := by
  simp [firstNode?, nodeIds]

theorem node?_eq_none_iff : g.node? id = none ↔ id ∉ g.nodeIds := by
  simp [node?, nodeIds]

theorem mem_of_firstNode? (hn : g.firstNode? id = some n) : n ∈ g.nodes ∧ n.id = id :=
  ⟨List.mem_of_find?_eq_some hn, by simpa using List.find?_some hn⟩

theorem mem_and_id_of_node? (hn : g.node? id = some n) : n ∈ g.nodes ∧ n.id = id :=
  ⟨List.mem_reverse.1 (List.mem_of_find?_eq_some hn), by simpa using List.find?_some hn⟩

theorem exists_node? (hid : id ∈ g.nodeIds) : ∃ n, g.node? id = some n := by
  cases hn : g.node? id with
  | none => exact absurd hid (node?_eq_none_iff.1 hn)
  | some n => exact ⟨n, rfl⟩

theorem exists_firstNode? (hid : id ∈ g.nodeIds) : ∃ n, g.firstNode? id = some n := by
  cases hn : g.firstNode? id with
  | none => exact absurd hid (firstNode?_eq_none_iff.1 hn)
  | some n => exact ⟨n, rfl⟩

/-- The kind of the first node with an id. -/
def firstKind? (g : Graph) (id : NodeId) : Option Kind :=
  (g.firstNode? id).map (·.kind)

/-- Where no id is repeated, the first node with an id is the node with it. -/
theorem firstNode?_eq_some_iff (hnodup : g.nodeIds.Nodup) :
    g.firstNode? id = some n ↔ n ∈ g.nodes ∧ n.id = id := by
  refine ⟨mem_of_firstNode?, ?_⟩
  rintro ⟨hn, rfl⟩
  exact find?_eq_some_of_nodup hnodup hn

/-- Where no id is repeated, the last node with an id is the node with it. -/
theorem node?_eq_some_iff (hnodup : g.nodeIds.Nodup) :
    g.node? id = some n ↔ n ∈ g.nodes ∧ n.id = id := by
  refine ⟨mem_and_id_of_node?, ?_⟩
  rintro ⟨hn, rfl⟩
  have hrev : (g.nodes.reverse.map (·.id)).Nodup := by
    rw [List.map_reverse, List.nodup_reverse]
    exact hnodup
  exact find?_eq_some_of_nodup hrev (List.mem_reverse.2 hn)

/-- Where no id is repeated, nodes with one id are one node. -/
theorem eq_of_id_eq (hnodup : g.nodeIds.Nodup) {m : Node} (hn : n ∈ g.nodes) (hm : m ∈ g.nodes)
    (hid : n.id = m.id) : n = m := by
  have hfound := (firstNode?_eq_some_iff hnodup).2 ⟨hn, hid⟩
  rw [(firstNode?_eq_some_iff hnodup).2 ⟨hm, rfl⟩, Option.some.injEq] at hfound
  exact hfound.symm

/-! ### Closed graphs -/

/-- Every edge ends at nodes. -/
def Closed (g : Graph) : Prop :=
  ∀ e ∈ g.edges, e.source ∈ g.nodeIds ∧ e.target ∈ g.nodeIds

theorem checkEdge_eq_ok_iff {e : Edge} :
    g.checkEdge e = .ok () ↔ e.source ∈ g.nodeIds ∧ e.target ∈ g.nodeIds := by
  by_cases hs : e.source ∈ g.nodeIds <;> by_cases ht : e.target ∈ g.nodeIds <;>
    simp [checkEdge, hs, ht]

/-- The check of the references accepts exactly the closed graphs. -/
theorem checkReferences_eq_ok_iff : g.checkReferences = .ok () ↔ g.Closed := by
  rw [checkReferences, forM_eq_ok_iff]
  exact forall₂_congr fun _ _ => checkEdge_eq_ok_iff

/-! ### Shapes -/

/-- The ids and kinds of the nodes, in order. -/
def shape (g : Graph) : List (NodeId × Kind) :=
  g.nodes.map fun n => (n.id, n.kind)

/-- The graphs differ in nothing but what payloads hold besides their kind. -/
structure SameShape (g h : Graph) : Prop where
  /-- The nodes have the same ids and kinds. -/
  shape : h.shape = g.shape
  /-- The edges are the same. -/
  edges : h.edges = g.edges

namespace SameShape

theorem refl (g : Graph) : SameShape g g := ⟨rfl, rfl⟩

theorem symm (hgh : SameShape g h) : SameShape h g := ⟨hgh.shape.symm, hgh.edges.symm⟩

theorem trans {k : Graph} (hgh : SameShape g h) (hhk : SameShape h k) : SameShape g k :=
  ⟨hhk.shape.trans hgh.shape, hhk.edges.trans hgh.edges⟩

/-- Changing nodes one by one, but not their ids and kinds, keeps the shape. -/
theorem of_map {f : Node → Node} (hf : ∀ n ∈ g.nodes, (f n).id = n.id ∧ (f n).kind = n.kind) :
    SameShape g { g with nodes := g.nodes.map f } where
  shape := by
    rw [Graph.shape, Graph.shape, List.map_map]
    refine List.map_congr_left fun n hn => ?_
    rw [Function.comp_apply, (hf n hn).1, (hf n hn).2]
  edges := rfl

theorem nodeIds_eq (hgh : SameShape g h) : h.nodeIds = g.nodeIds := by
  have hids : ∀ k : Graph, k.nodeIds = k.shape.map (·.1) := by
    intro k
    simp [nodeIds, Graph.shape]
  rw [hids, hids, hgh.shape]

theorem exists_mem (hgh : SameShape g h) (hn : n ∈ g.nodes) :
    ∃ m ∈ h.nodes, m.id = n.id ∧ m.kind = n.kind := by
  have hmem : (n.id, n.kind) ∈ h.shape := by
    rw [hgh.shape]
    exact List.mem_map.2 ⟨n, hn, rfl⟩
  obtain ⟨m, hm, heq⟩ := List.mem_map.1 hmem
  exact ⟨m, hm, congrArg Prod.fst heq, congrArg Prod.snd heq⟩

theorem closed (hgh : SameShape g h) (hg : g.Closed) : h.Closed := by
  intro e he
  rw [hgh.nodeIds_eq]
  exact hg e (hgh.edges ▸ he)

theorem map_id_nodesOfKind_eq (hgh : SameShape g h) (k : Kind) :
    (h.nodesOfKind k).map (·.id) = (g.nodesOfKind k).map (·.id) := by
  have hfilter : ∀ f : Graph,
      (f.nodesOfKind k).map (·.id) = (f.shape.filter (·.2 = k)).map (·.1) := by
    intro f
    rw [nodesOfKind, Graph.shape, List.filter_map, List.map_map]
    rfl
  rw [hfilter, hfilter, hgh.shape]

theorem firstKind?_eq (hgh : SameShape g h) (id : NodeId) :
    h.firstKind? id = g.firstKind? id := by
  have hfind : ∀ k : Graph, k.firstKind? id = (k.shape.find? (·.1 = id)).map (·.2) := by
    intro k
    rw [firstKind?, firstNode?, Graph.shape, List.find?_map, Option.map_map]
    rfl
  rw [hfind, hfind, hgh.shape]

end SameShape

end Graph
end AgentFlow

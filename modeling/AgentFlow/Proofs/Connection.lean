import AgentFlow.Connection.Rule
import AgentFlow.Proofs.Sound

/-!
# Edges and nodes that come and go

The check before an edge is drawn against the rules of the whole graph, and the other changes of
nodes and edges that keep the rules.

## Main results

* `checkConnection_eq_none_iff`: what the check before an edge is drawn asks for.
* `Graph.sound_append_edge_iff`: **an edge passes the check exactly if the graph is still sound with
  it.**
* `Graph.checkConnection_iff_findings`: the check before an edge is drawn agrees with the check of
  the whole graph.
* `Graph.Sound.of_sameShape`, `Graph.Sound.append_node`, `Graph.Sound.filter_edges`,
  `Graph.Sound.without`: changes that keep a graph sound.
-/

namespace AgentFlow

/-- An edge may be drawn exactly if the kinds fit, no edge leaves the input or enters the runner
yet, and there is no way back. -/
theorem checkConnection_eq_none_iff {s t : Node} {edges : List Edge} :
    checkConnection s t edges = none ↔
      s.kind.mayConnect t.kind = true ∧ (s.kind = .input → ∀ e ∈ edges, e.source ≠ s.id) ∧
        (t.kind = .runner → ∀ e ∈ edges, e.target ≠ t.id) ∧ ¬ Edge.Leads edges t.id s.id := by
  rw [← createsCycle_eq_true_iff]
  have hinput : (s.kind = .input ∧ edges.any (·.source = s.id) = true) ↔
      ¬ (s.kind = .input → ∀ e ∈ edges, e.source ≠ s.id) := by
    simp
  have hrunner : (t.kind = .runner ∧ edges.any (·.target = t.id) = true) ↔
      ¬ (t.kind = .runner → ∀ e ∈ edges, e.target ≠ t.id) := by
    simp
  -- the check stops at the first of four conditions that fails, so all before it hold
  rw [checkConnection]
  split
  · next h => simp [h]
  · next hfit =>
    split
    · next h => simp [hinput.1 h]
    · next hin =>
      split
      · next h => simp [hrunner.1 h]
      · next hrun =>
        rw [hinput, not_not] at hin
        rw [hrunner, not_not] at hrun
        split
        · next h => simp [h]
        · next h => simpa [h] using ⟨by simpa using hfit, hin, hrun⟩

namespace Graph

variable {g : Graph}

/-! ### One more edge -/

section Fan

variable {α : Type} {p : α → Bool} {l : List α} {a : α}

/-- An entry that counts is the only one exactly if none counted before. -/
theorem length_filter_append_le_one_iff (ha : p a = true) :
    ((l ++ [a]).filter p).length ≤ 1 ↔ ∀ x ∈ l, p x = false := by
  simp [List.filter_append, ha, List.filter_eq_nil_iff]

theorem length_filter_append_le_one (hold : (l.filter p).length ≤ 1)
    (hnone : p a = true → ∀ x ∈ l, p x = false) : ((l ++ [a]).filter p).length ≤ 1 := by
  by_cases ha : p a = true
  · exact (length_filter_append_le_one_iff ha).2 (hnone ha)
  · rwa [List.filter_append, List.filter_cons_of_neg ha, List.filter_nil, List.append_nil]

end Fan

variable {s t : Node} {e : Edge}

theorem Closed.append_edge (hclosed : g.Closed) (hsource : e.source ∈ g.nodeIds)
    (htarget : e.target ∈ g.nodeIds) : Closed { g with edges := g.edges ++ [e] } := by
  intro x hx
  rcases List.mem_append.1 hx with hx | hx
  · exact hclosed x hx
  · obtain rfl := List.mem_singleton.1 hx
    exact ⟨hsource, htarget⟩

/-- An edge that passes the check keeps a graph sound.  The check sees the two nodes and the old
edges, and this is enough for all rules. -/
theorem Sound.append_edge (h : g.Sound) (hs : s ∈ g.nodes) (ht : t ∈ g.nodes)
    (hsource : e.source = s.id) (htarget : e.target = t.id)
    (hcheck : checkConnection s t g.edges = none) :
    Sound { g with edges := g.edges ++ [e] } := by
  obtain ⟨hfit, hinput, hrunner, hback⟩ := checkConnection_eq_none_iff.1 hcheck
  have hclosed := h.closed.append_edge (hsource ▸ id_mem_nodeIds hs) (htarget ▸ id_mem_nodeIds ht)
  -- a rule that is broken is broken by the new edge, and that is what the check excludes
  refine ⟨h.nodup, hclosed, ?_, ?_, ?_, ?_⟩
  · intro x hx s' hs' t' ht' hsid htid
    rcases List.mem_append.1 hx with hx | hx
    · exact h.fitting x hx s' hs' t' ht' hsid htid
    · obtain rfl := List.mem_singleton.1 hx
      obtain rfl := eq_of_id_eq h.nodup hs' hs (hsid.trans hsource)
      obtain rfl := eq_of_id_eq h.nodup ht' ht (htid.trans htarget)
      exact hfit
  · intro n hn hkind
    refine length_filter_append_le_one (h.inputs n hn hkind) fun hsn x hx => ?_
    obtain rfl := eq_of_id_eq h.nodup hs hn (by simpa [hsource] using hsn)
    simpa using hinput hkind x hx
  · intro n hn hkind
    refine length_filter_append_le_one (h.runners n hn hkind) fun htn x hx => ?_
    obtain rfl := eq_of_id_eq h.nodup ht hn (by simpa [htarget] using htn)
    simpa using hrunner hkind x hx
  · rw [← hsource, ← htarget] at hback
    exact Edge.acyclic_append_singleton.2 ⟨h.acyclic, hback⟩

/-- An edge of a sound graph passes the check against the other edges. -/
theorem checkConnection_of_sound (h : Sound { g with edges := g.edges ++ [e] })
    (hs : s ∈ g.nodes) (ht : t ∈ g.nodes) (hsource : e.source = s.id) (htarget : e.target = t.id) :
    checkConnection s t g.edges = none := by
  have hmem : e ∈ g.edges ++ [e] := by simp
  refine checkConnection_eq_none_iff.2 ⟨?_, ?_, ?_, ?_⟩
  · exact h.fitting e hmem s hs t ht hsource.symm htarget.symm
  · intro hkind x hx
    have hnone := (length_filter_append_le_one_iff (by simpa using hsource)).1 (h.inputs s hs hkind)
    simpa using hnone x hx
  · intro hkind x hx
    have hnone := (length_filter_append_le_one_iff (by simpa using htarget)).1
      (h.runners t ht hkind)
    simpa using hnone x hx
  · rw [← hsource, ← htarget]
    exact (Edge.acyclic_append_singleton.1 h.acyclic).2

/-- **An edge passes the check exactly if the graph is still sound with it.** -/
theorem sound_append_edge_iff (h : g.Sound) (hs : s ∈ g.nodes) (ht : t ∈ g.nodes)
    (hsource : e.source = s.id) (htarget : e.target = t.id) :
    checkConnection s t g.edges = none ↔ Sound { g with edges := g.edges ++ [e] } :=
  ⟨h.append_edge hs ht hsource htarget,
    fun hsound => checkConnection_of_sound hsound hs ht hsource htarget⟩

/-- **The two checks agree.**  Where the whole graph is found in order, an edge with a new id may be
drawn between two of its nodes exactly if the graph is still in order with it. -/
theorem checkConnection_iff_findings (h : g.findings = []) (hs : s ∈ g.nodes) (ht : t ∈ g.nodes)
    {id : EdgeId} (hid : id ∉ g.edges.map (·.id)) :
    checkConnection s t g.edges = none ↔
      Graph.findings { g with edges := g.edges ++ [⟨id, s.id, t.id⟩] } = [] := by
  obtain ⟨hsound, hnodup⟩ := findings_eq_nil_iff.1 h
  have hnodup' : ((g.edges ++ [(⟨id, s.id, t.id⟩ : Edge)]).map (·.id)).Nodup := by
    rw [List.map_append, List.map_singleton]
    exact hnodup.append (List.nodup_singleton _) (by simpa using hid)
  rw [findings_eq_nil_iff, and_iff_left hnodup']
  exact sound_append_edge_iff hsound hs ht rfl rfl

/-- Two agents that hand off one to the other, and a runner for the first. -/
def handoffPair : Graph :=
  { nodes := [⟨"a", none, .agent {}⟩, ⟨"b", none, .agent {}⟩, ⟨"r", none, .runner {}⟩]
    edges := [⟨"e1", "a", "b"⟩, ⟨"e2", "a", "r"⟩] }

/-- The way back between the two agents is refused by both checks. -/
theorem checkConnection_iff_findings_handoffPair :
    handoffPair.findings = [] ∧ "e3" ∉ handoffPair.edges.map (·.id) ∧
      (checkConnection ⟨"b", none, .agent {}⟩ ⟨"a", none, .agent {}⟩ handoffPair.edges = none ↔
        Graph.findings
          { handoffPair with edges := handoffPair.edges ++ [⟨"e3", "b", "a"⟩] } = []) :=
  have hfindings : handoffPair.findings = [] := by decide +kernel
  have hid : "e3" ∉ handoffPair.edges.map (·.id) := by decide
  ⟨hfindings, hid, checkConnection_iff_findings hfindings (by decide) (by decide) hid⟩

/-! ### Other changes -/

/-- The rules only look at the shape of a graph, so an edit inside nodes that keeps ids and kinds
keeps a graph sound. -/
theorem Sound.of_sameShape {h : Graph} (hg : g.Sound) (hgh : SameShape g h) : h.Sound := by
  refine ⟨?_, hgh.closed hg.closed, ?_, ?_, ?_, ?_⟩
  · rw [hgh.nodeIds_eq]
    exact hg.nodup
  · intro e he s hs t ht hsid htid
    -- the nodes of `g` at the ends of the edge have the same kinds
    obtain ⟨s', hs', hsid', hskind⟩ := hgh.symm.exists_mem hs
    obtain ⟨t', ht', htid', htkind⟩ := hgh.symm.exists_mem ht
    rw [← hskind, ← htkind]
    exact hg.fitting e (hgh.edges ▸ he) s' hs' t' ht' (hsid'.trans hsid) (htid'.trans htid)
  · intro n hn hkind
    obtain ⟨m, hm, hid, hmkind⟩ := hgh.symm.exists_mem hn
    rw [outgoing, hgh.edges, ← hid]
    exact hg.inputs m hm (hmkind.trans hkind)
  · intro n hn hkind
    obtain ⟨m, hm, hid, hmkind⟩ := hgh.symm.exists_mem hn
    rw [incoming, hgh.edges, ← hid]
    exact hg.runners m hm (hmkind.trans hkind)
  · rw [hgh.edges]
    exact hg.acyclic

/-- In a closed graph no edge touches an id that no node has. -/
theorem Closed.ne_of_not_mem (hclosed : g.Closed) {id : NodeId} (hid : id ∉ g.nodeIds) :
    ∀ e ∈ g.edges, e.source ≠ id ∧ e.target ≠ id := by
  intro e he
  constructor
  · rintro rfl
    exact hid (hclosed e he).1
  · rintro rfl
    exact hid (hclosed e he).2

theorem mem_append_node {n m : Node} : m ∈ g.nodes ++ [n] ↔ m ∈ g.nodes ∨ m = n := by
  simp

theorem nodup_append_node {n : Node} (hnodup : g.nodeIds.Nodup) (hn : n.id ∉ g.nodeIds) :
    (Graph.nodeIds { g with nodes := g.nodes ++ [n] }).Nodup := by
  rw [nodeIds, List.map_append, List.map_singleton]
  exact hnodup.append (List.nodup_singleton _) (by simpa using hn)

theorem Closed.append_node {n : Node} (hclosed : g.Closed) :
    Closed { g with nodes := g.nodes ++ [n] } := by
  intro e he
  rw [nodeIds, List.map_append]
  exact ⟨List.mem_append_left _ (hclosed e he).1, List.mem_append_left _ (hclosed e he).2⟩

/-- A node with a new id stands alone, and keeps a graph sound. -/
theorem Sound.append_node {n : Node} (h : g.Sound) (hn : n.id ∉ g.nodeIds) :
    Sound { g with nodes := g.nodes ++ [n] } := by
  have halone := h.closed.ne_of_not_mem hn
  -- all other rules are about edges, and none touches the new node
  refine ⟨nodup_append_node h.nodup hn, h.closed.append_node, ?_, ?_, ?_, h.acyclic⟩
  · intro e he s hs t ht hsid htid
    rcases mem_append_node.1 hs with hs | rfl
    · rcases mem_append_node.1 ht with ht | rfl
      · exact h.fitting e he s hs t ht hsid htid
      · exact absurd htid.symm (halone e he).2
    · exact absurd hsid.symm (halone e he).1
  · intro m hm hkind
    rcases mem_append_node.1 hm with hm | rfl
    · exact h.inputs m hm hkind
    · have hnone : g.edges.filter (·.source = m.id) = [] :=
        List.filter_eq_nil_iff.2 fun e he => by simpa using (halone e he).1
      rw [outgoing, hnone]
      exact Nat.zero_le 1
  · intro m hm hkind
    rcases mem_append_node.1 hm with hm | rfl
    · exact h.runners m hm hkind
    · have hnone : g.edges.filter (·.target = m.id) = [] :=
        List.filter_eq_nil_iff.2 fun e he => by simpa using (halone e he).2
      rw [incoming, hnone]
      exact Nat.zero_le 1

/-- Fewer edges keep a graph sound: no rule asks for an edge to be there. -/
theorem Sound.filter_edges (h : g.Sound) (p : Edge → Bool) :
    Sound { g with edges := g.edges.filter p } := by
  have hsub : ∀ e ∈ g.edges.filter p, e ∈ g.edges := fun _ he => (List.mem_filter.1 he).1
  have hle : ∀ q : Edge → Bool,
      ((g.edges.filter p).filter q).length ≤ (g.edges.filter q).length := fun q =>
    ((List.filter_sublist).filter q).length_le
  refine ⟨h.nodup, fun e he => h.closed e (hsub e he), fun e he => h.fitting e (hsub e he), ?_, ?_,
    h.acyclic.of_subset hsub⟩
  · intro n hn hkind
    exact (hle _).trans (h.inputs n hn hkind)
  · intro n hn hkind
    exact (hle _).trans (h.runners n hn hkind)

/-- The graph without the nodes with an id and without the edges that touch them. -/
def without (g : Graph) (id : NodeId) : Graph :=
  { nodes := g.nodes.filter (·.id ≠ id)
    edges := g.edges.filter fun e => e.source ≠ id ∧ e.target ≠ id }

section Without

variable {id : NodeId}

theorem mem_nodes_without {n : Node} : n ∈ (g.without id).nodes ↔ n ∈ g.nodes ∧ n.id ≠ id := by
  simp [without]

theorem mem_edges_without {e : Edge} :
    e ∈ (g.without id).edges ↔ e ∈ g.edges ∧ e.source ≠ id ∧ e.target ≠ id := by
  simp [without]

theorem mem_nodeIds_without {k : NodeId} :
    k ∈ (g.without id).nodeIds ↔ k ∈ g.nodeIds ∧ k ≠ id := by
  simp only [mem_nodeIds, mem_nodes_without]
  constructor
  · rintro ⟨n, ⟨hn, hne⟩, rfl⟩
    exact ⟨⟨n, hn, rfl⟩, hne⟩
  · rintro ⟨⟨n, hn, rfl⟩, hne⟩
    exact ⟨n, ⟨hn, hne⟩, rfl⟩

theorem nodup_without (hnodup : g.nodeIds.Nodup) : (g.without id).nodeIds.Nodup :=
  hnodup.sublist (List.filter_sublist.map _)

theorem Closed.without (hclosed : g.Closed) : (g.without id).Closed := by
  intro e he
  obtain ⟨he, hsource, htarget⟩ := mem_edges_without.1 he
  rw [mem_nodeIds_without, mem_nodeIds_without]
  exact ⟨⟨(hclosed e he).1, hsource⟩, (hclosed e he).2, htarget⟩

/-- Taking nodes away, with the edges that touch them, keeps a graph sound. -/
theorem Sound.without (h : g.Sound) : (g.without id).Sound := by
  have hfewer := h.filter_edges fun e => e.source ≠ id ∧ e.target ≠ id
  refine ⟨nodup_without h.nodup, h.closed.without, ?_, ?_, ?_, hfewer.acyclic⟩
  · intro e he s hs t ht
    exact hfewer.fitting e he s (mem_nodes_without.1 hs).1 t (mem_nodes_without.1 ht).1
  · intro n hn
    exact hfewer.inputs n (mem_nodes_without.1 hn).1
  · intro n hn
    exact hfewer.runners n (mem_nodes_without.1 hn).1

end Without

end Graph
end AgentFlow

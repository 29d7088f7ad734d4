import AgentFlow.Proofs.Cycle
import AgentFlow.Proofs.Shape
import AgentFlow.Validation

/-!
# Sound graphs

What the check of a whole graph establishes.  A graph is sound if nothing is wrong with it, except
that ids of edges may be repeated: an edge is found again by its id only to be removed, and the
rules of a workflow do not depend on it.

## Main definitions

* `Graph.Sound`: the rules that a workflow keeps.
* `Kind.fittingPairs`, `Graph.WellFormed`: the rules spelled out, for edges with ids of their own.

## Main results

* `Graph.sound_iff`: each rule is what one part of the check looks for.
* `Graph.findings_eq_nil_iff`: **nothing is found exactly in the sound graphs without repeated ids
  of edges.**
* `Graph.forall_findings_code_iff`: in a sound graph nothing but repeated ids of edges is found.
* `Graph.findings_eq_nil_iff_wellFormed`: **nothing is found exactly in the well-formed graphs.**
-/

namespace AgentFlow

/-- The rules that a workflow keeps.  They are about the graph alone, not about names, messages or
the code that is generated. -/
structure Graph.Sound (g : Graph) : Prop where
  /-- No id of a node is repeated. -/
  nodup : g.nodeIds.Nodup
  /-- Every edge ends at nodes. -/
  closed : g.Closed
  /-- Every edge joins kinds that fit. -/
  fitting : ∀ e ∈ g.edges, ∀ s ∈ g.nodes, ∀ t ∈ g.nodes, s.id = e.source → t.id = e.target →
    s.kind.mayConnect t.kind = true
  /-- At most one edge leaves an input. -/
  inputs : ∀ n ∈ g.nodes, n.kind = .input → (g.outgoing n.id).length ≤ 1
  /-- At most one edge enters a runner. -/
  runners : ∀ n ∈ g.nodes, n.kind = .runner → (g.incoming n.id).length ≤ 1
  /-- There is no circle. -/
  acyclic : Edge.Acyclic g.edges

/-! ### Part by part -/

/-- Nothing occurs again exactly if nothing is repeated and nothing was seen before. -/
theorem repeats_eq_nil_iff {seen l : List String} :
    repeats seen l = [] ↔ l.Nodup ∧ ∀ s ∈ l, s ∉ seen := by
  induction l generalizing seen with
  | nil => simp [repeats]
  | cons s l ih =>
    rw [repeats]
    by_cases hs : s ∈ seen
    · simp [hs]
    · rw [if_neg hs, ih, List.nodup_cons]
      constructor
      · rintro ⟨hnodup, hfresh⟩
        refine ⟨⟨fun hmem => hfresh s hmem List.mem_cons_self, hnodup⟩, ?_⟩
        rw [List.forall_mem_cons]
        exact ⟨hs, fun x hx hseen => hfresh x hx (List.mem_cons_of_mem _ hseen)⟩
      · rintro ⟨⟨hnot, hnodup⟩, hfresh⟩
        refine ⟨hnodup, fun x hx hmem => ?_⟩
        rcases List.mem_cons.1 hmem with rfl | hseen
        · exact hnot hx
        · exact hfresh x (List.mem_cons_of_mem _ hx) hseen

namespace Graph

variable {g : Graph}

/-- Nothing is wrong with an edge exactly if it ends at nodes whose kinds fit. -/
theorem edgeFindings_eq_nil_iff {e : Edge} :
    g.edgeFindings e = [] ↔ ∃ s t, g.node? e.source = some s ∧ g.node? e.target = some t ∧
      s.kind.mayConnect t.kind = true := by
  cases hs : g.node? e.source <;> cases ht : g.node? e.target <;> simp [edgeFindings, hs, ht]

theorem inputFans_eq_nil_iff :
    g.inputFans = [] ↔ ∀ n ∈ g.nodes, n.kind = .input → (g.outgoing n.id).length ≤ 1 := by
  rw [inputFans, List.map_eq_nil_iff, List.filter_eq_nil_iff]
  simp [nodesOfKind]

theorem runnerFans_eq_nil_iff :
    g.runnerFans = [] ↔ ∀ n ∈ g.nodes, n.kind = .runner → (g.incoming n.id).length ≤ 1 := by
  rw [runnerFans, List.map_eq_nil_iff, List.filter_eq_nil_iff]
  simp [nodesOfKind]

/-- In a closed graph every edge has a node at both ends. -/
theorem innerEdges_of_closed (hclosed : g.Closed) : g.innerEdges = g.edges := by
  rw [innerEdges, List.filter_eq_self]
  intro e he
  simpa using hclosed e he

/-- Where no id is repeated, the check of the edges is the rules about them. -/
theorem forall_edgeFindings_eq_nil_iff (hnodup : g.nodeIds.Nodup) :
    (∀ e ∈ g.edges, g.edgeFindings e = []) ↔ g.Closed ∧
      ∀ e ∈ g.edges, ∀ s ∈ g.nodes, ∀ t ∈ g.nodes, s.id = e.source → t.id = e.target →
        s.kind.mayConnect t.kind = true := by
  constructor
  · intro h
    constructor
    · intro e he
      obtain ⟨s, t, hs, ht, -⟩ := edgeFindings_eq_nil_iff.1 (h e he)
      obtain ⟨hsmem, hsid⟩ := mem_and_id_of_node? hs
      obtain ⟨htmem, htid⟩ := mem_and_id_of_node? ht
      exact ⟨mem_nodeIds.2 ⟨s, hsmem, hsid⟩, mem_nodeIds.2 ⟨t, htmem, htid⟩⟩
    · intro e he s hs t ht hsid htid
      obtain ⟨s', t', hs', ht', hfit⟩ := edgeFindings_eq_nil_iff.1 (h e he)
      -- the check looks its nodes up, and ids lead to one node only
      rw [(node?_eq_some_iff hnodup).2 ⟨hs, hsid⟩, Option.some.injEq] at hs'
      rw [(node?_eq_some_iff hnodup).2 ⟨ht, htid⟩, Option.some.injEq] at ht'
      rw [hs', ht']
      exact hfit
  · rintro ⟨hclosed, hfit⟩ e he
    obtain ⟨s, hs⟩ := exists_node? (hclosed e he).1
    obtain ⟨t, ht⟩ := exists_node? (hclosed e he).2
    obtain ⟨hsmem, hsid⟩ := mem_and_id_of_node? hs
    obtain ⟨htmem, htid⟩ := mem_and_id_of_node? ht
    exact edgeFindings_eq_nil_iff.2 ⟨s, t, hs, ht, hfit e he s hsmem t htmem hsid htid⟩

/-- Each rule is what one part of the check looks for, so the check misses no breach and reports
none that is not there. -/
theorem sound_iff :
    g.Sound ↔ repeats [] g.nodeIds = [] ∧ (∀ e ∈ g.edges, g.edgeFindings e = []) ∧
      g.inputFans = [] ∧ g.runnerFans = [] ∧ g.cyclicNodes = [] := by
  have hnodup : repeats [] g.nodeIds = [] ↔ g.nodeIds.Nodup := by
    simp [repeats_eq_nil_iff]
  rw [hnodup, inputFans_eq_nil_iff, runnerFans_eq_nil_iff, cyclicNodes_eq_nil_iff]
  constructor
  · intro h
    refine ⟨h.nodup, (forall_edgeFindings_eq_nil_iff h.nodup).2 ⟨h.closed, h.fitting⟩, h.inputs,
      h.runners, ?_⟩
    rw [innerEdges_of_closed h.closed]
    exact h.acyclic
  · rintro ⟨hids, hedges, hinputs, hrunners, hacyclic⟩
    obtain ⟨hclosed, hfit⟩ := (forall_edgeFindings_eq_nil_iff hids).1 hedges
    rw [innerEdges_of_closed hclosed] at hacyclic
    exact ⟨hids, hclosed, hfit, hinputs, hrunners, hacyclic⟩

/-! ### All findings -/

/-- **Nothing is found exactly in the sound graphs without repeated ids of edges.** -/
theorem findings_eq_nil_iff : g.findings = [] ↔ g.Sound ∧ (g.edges.map (·.id)).Nodup := by
  have hnodup : repeats [] (g.edges.map (·.id)) = [] ↔ (g.edges.map (·.id)).Nodup := by
    simp [repeats_eq_nil_iff]
  rw [sound_iff, ← hnodup]
  simp only [findings, List.append_eq_nil_iff, List.map_eq_nil_iff, List.flatMap_eq_nil_iff]
  tauto

/-- What holds of no entry holds of all of them only if there are none. -/
theorem forall_mem_iff_eq_nil {α : Type} {p : α → Prop} {l : List α} (h : ∀ a ∈ l, ¬ p a) :
    (∀ a ∈ l, p a) ↔ l = [] := by
  rw [List.eq_nil_iff_forall_not_mem]
  exact ⟨fun hall a ha => h a ha (hall a ha), fun hnone a ha => absurd ha (hnone a)⟩

/-- The code of repeated ids of edges is the code of no other finding. -/
theorem code_eq_iff {f : Finding} :
    f.code = "DUPLICATE_EDGE_ID" ↔ ∃ id, f = .duplicateEdge id := by
  cases f <;> simp [Finding.code, Reason.code]

theorem code_ne_of_mem_edgeFindings {e : Edge} {f : Finding} (hf : f ∈ g.edgeFindings e) :
    ¬ f.code = "DUPLICATE_EDGE_ID" := by
  rw [code_eq_iff]
  rintro ⟨id, rfl⟩
  rw [edgeFindings] at hf
  split at hf
  · simp at hf
  · simp at hf
  · simp at hf
  · split at hf <;> simp at hf

/-- Findings of another sort all have the code of repeated ids of edges only if there are none. -/
theorem forall_map_code_iff {α : Type} {make : α → Finding} {l : List α}
    (h : ∀ a id, make a ≠ .duplicateEdge id) :
    (∀ f ∈ l.map make, f.code = "DUPLICATE_EDGE_ID") ↔ l.map make = [] := by
  refine forall_mem_iff_eq_nil fun f hf hcode => ?_
  obtain ⟨a, -, rfl⟩ := List.mem_map.1 hf
  obtain ⟨id, hid⟩ := code_eq_iff.1 hcode
  exact h a id hid

/-- In a sound graph nothing but repeated ids of edges is found. -/
theorem forall_findings_code_iff :
    (∀ f ∈ g.findings, f.code = "DUPLICATE_EDGE_ID") ↔ g.Sound := by
  -- every part but the second one has other codes, so it must be empty
  have hids : (∀ f ∈ (repeats [] g.nodeIds).map Finding.duplicateNode,
      f.code = "DUPLICATE_EDGE_ID") ↔ repeats [] g.nodeIds = [] := by
    rw [forall_map_code_iff (by simp), List.map_eq_nil_iff]
  have hedges : (∀ f ∈ g.edges.flatMap g.edgeFindings, f.code = "DUPLICATE_EDGE_ID") ↔
      ∀ e ∈ g.edges, g.edgeFindings e = [] := by
    rw [forall_mem_iff_eq_nil, List.flatMap_eq_nil_iff]
    intro f hf
    obtain ⟨e, -, hfe⟩ := List.mem_flatMap.1 hf
    exact code_ne_of_mem_edgeFindings hfe
  have hinputs : (∀ f ∈ g.inputFans, f.code = "DUPLICATE_EDGE_ID") ↔ g.inputFans = [] :=
    forall_map_code_iff (by simp)
  have hrunners : (∀ f ∈ g.runnerFans, f.code = "DUPLICATE_EDGE_ID") ↔ g.runnerFans = [] :=
    forall_map_code_iff (by simp)
  have hcyclic : (∀ f ∈ g.cyclicNodes.map Finding.cyclic, f.code = "DUPLICATE_EDGE_ID") ↔
      g.cyclicNodes = [] := by
    rw [forall_map_code_iff (by simp), List.map_eq_nil_iff]
  have hrepeated : ∀ f ∈ (repeats [] (g.edges.map (·.id))).map Finding.duplicateEdge,
      f.code = "DUPLICATE_EDGE_ID" := by
    simp [code_eq_iff]
  simp only [findings, List.forall_mem_append]
  rw [hids, hedges, hinputs, hrunners, hcyclic, sound_iff]
  tauto

end Graph

/-! ### Well-formed graphs

The rules once more, without the lookups and counts of the check. -/

/-- The pairs of kinds that an edge may join. -/
def Kind.fittingPairs : List (Kind × Kind) :=
  [(.input, .agent), (.functionTool, .agent), (.agent, .agent), (.agent, .runner),
    (.guardrail, .agent)]

theorem Kind.mayConnect_eq_true_iff {s t : Kind} :
    s.mayConnect t = true ↔ (s, t) ∈ fittingPairs := by
  cases s <;> cases t <;> decide

namespace Graph

variable {g : Graph}

/-- A graph in which nothing is wrong. -/
structure WellFormed (g : Graph) : Prop where
  nodeIds : (g.nodes.map (·.id)).Nodup
  edgeIds : (g.edges.map (·.id)).Nodup
  ends : ∀ e ∈ g.edges, (∃ s ∈ g.nodes, s.id = e.source) ∧ ∃ t ∈ g.nodes, t.id = e.target
  kinds : ∀ e ∈ g.edges, ∀ s ∈ g.nodes, ∀ t ∈ g.nodes, s.id = e.source → t.id = e.target →
    (s.kind, t.kind) ∈ Kind.fittingPairs
  inputs : ∀ n ∈ g.nodes, n.kind = .input → g.edges.countP (·.source = n.id) ≤ 1
  runners : ∀ n ∈ g.nodes, n.kind = .runner → g.edges.countP (·.target = n.id) ≤ 1
  acyclic : ¬ ∃ a, Relation.TransGen (Edge.Joins g.edges) a a

theorem closed_iff : g.Closed ↔
    ∀ e ∈ g.edges, (∃ s ∈ g.nodes, s.id = e.source) ∧ ∃ t ∈ g.nodes, t.id = e.target := by
  refine forall₂_congr fun e _ => ?_
  rw [mem_nodeIds, mem_nodeIds]

theorem length_outgoing (id : NodeId) : (g.outgoing id).length = g.edges.countP (·.source = id) :=
  List.countP_eq_length_filter.symm

theorem length_incoming (id : NodeId) : (g.incoming id).length = g.edges.countP (·.target = id) :=
  List.countP_eq_length_filter.symm

/-- **Nothing is found exactly in the well-formed graphs.**  The rules on the right are spelled out
and do not use any part of the check. -/
theorem findings_eq_nil_iff_wellFormed : g.findings = [] ↔ g.WellFormed := by
  rw [findings_eq_nil_iff]
  constructor
  · rintro ⟨hsound, hedges⟩
    refine ⟨hsound.nodup, hedges, closed_iff.1 hsound.closed, ?_, ?_, ?_, ?_⟩
    · intro e he s hs t ht hsource htarget
      exact Kind.mayConnect_eq_true_iff.1 (hsound.fitting e he s hs t ht hsource htarget)
    · intro n hn hkind
      rw [← length_outgoing]
      exact hsound.inputs n hn hkind
    · intro n hn hkind
      rw [← length_incoming]
      exact hsound.runners n hn hkind
    · rintro ⟨a, ha⟩
      exact hsound.acyclic a ha
  · intro h
    refine ⟨⟨h.nodeIds, closed_iff.2 h.ends, ?_, ?_, ?_, ?_⟩, h.edgeIds⟩
    · intro e he s hs t ht hsource htarget
      exact Kind.mayConnect_eq_true_iff.2 (h.kinds e he s hs t ht hsource htarget)
    · intro n hn hkind
      rw [length_outgoing]
      exact h.inputs n hn hkind
    · intro n hn hkind
      rw [length_incoming]
      exact h.runners n hn hkind
    · intro a ha
      exact h.acyclic ⟨a, ha⟩

end Graph
end AgentFlow

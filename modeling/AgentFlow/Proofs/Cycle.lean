import AgentFlow.Proofs.Bookkeeping
import AgentFlow.Proofs.Path

/-!
# Circles are found

The two searches for circles against the paths of a graph: the depth-first search before an edge is
drawn, and the settling of a whole graph.

## Main definitions

* `Edge.Behind`: a node lies on a circle or behind one.
* `Settling`: what holds at every moment while a graph is being settled.

## Main results

* `createsCycle_eq_true_iff`: the search before an edge is drawn finds exactly the paths back.
* `Graph.mem_cyclicNodes_iff`: **the nodes that are never settled are those on circles and behind
  them.**
* `Graph.cyclicNodes_eq_nil_iff`: everything is settled exactly if there is no circle.
-/

namespace AgentFlow

open Relation

/-! ### Depth first -/

/-- The generalised form of `createsCycle_eq_true_iff`.  Whatever a visited node leads to directly
is visited or waits on the stack, so a path to the goal, which is not visited, passes the stack. -/
theorem leadsTo_eq_true_iff {edges : List Edge} {goal : NodeId} {visited stack : List NodeId}
    (hgoal : goal ∉ visited)
    (hclosed : ∀ a ∈ visited, ∀ b, Edge.Joins edges a b → b ∈ visited ∨ b ∈ stack) :
    leadsTo edges goal visited stack = true ↔
      ∃ a, (a ∈ visited ∨ a ∈ stack) ∧ Edge.Leads edges a goal := by
  fun_induction leadsTo edges goal visited stack with
  | case1 visited =>
    refine iff_of_false (by simp) ?_
    rintro ⟨a, ha, hpath⟩
    -- nothing waits, so a path from a visited node never leaves the visited ones
    induction hpath using ReflTransGen.head_induction_on with
    | refl => simp [hgoal] at ha
    | head hab _ ih => exact ih (hclosed _ (by simpa using ha) _ hab)
  | case2 visited stack =>
    exact iff_of_true rfl ⟨goal, by simp, .refl⟩
  | case3 visited id stack hne hmem ih =>
    have hknown : ∀ a, (a ∈ visited ∨ a ∈ id :: stack) ↔ (a ∈ visited ∨ a ∈ stack) := by
      intro a
      rw [List.mem_cons]
      constructor
      · rintro (ha | rfl | ha)
        · exact Or.inl ha
        · exact Or.inl hmem
        · exact Or.inr ha
      · rintro (ha | ha)
        · exact Or.inl ha
        · exact Or.inr (Or.inr ha)
    simp only [hknown] at hclosed ⊢
    exact ih hgoal hclosed
  | case4 visited id stack hne hfresh ih =>
    rw [ih (by simp [Ne.symm hne, hgoal]) fun a ha b hab => by
      rcases List.mem_cons.1 ha with rfl | ha
      · exact Or.inr (List.mem_append_left _ (Edge.mem_targetsOf.2 hab))
      · rcases hclosed a ha b hab with hb | hb
        · exact Or.inl (List.mem_cons_of_mem _ hb)
        · rcases List.mem_cons.1 hb with rfl | hb
          · exact Or.inl List.mem_cons_self
          · exact Or.inr (List.mem_append_right _ hb)]
    constructor
    · rintro ⟨a, ha | ha, hpath⟩
      · rcases List.mem_cons.1 ha with rfl | ha
        · exact ⟨a, Or.inr List.mem_cons_self, hpath⟩
        · exact ⟨a, Or.inl ha, hpath⟩
      · rcases List.mem_append.1 ha with ha | ha
        · exact ⟨id, Or.inr List.mem_cons_self, hpath.head (Edge.mem_targetsOf.1 ha)⟩
        · exact ⟨a, Or.inr (List.mem_cons_of_mem _ ha), hpath⟩
    · rintro ⟨a, ha | ha, hpath⟩
      · exact ⟨a, Or.inl (List.mem_cons_of_mem _ ha), hpath⟩
      · rcases List.mem_cons.1 ha with rfl | ha
        · exact ⟨a, Or.inl List.mem_cons_self, hpath⟩
        · exact ⟨a, Or.inr (List.mem_append_right _ ha), hpath⟩

/-- An edge is found to close a circle exactly if its target leads to its source. -/
theorem createsCycle_eq_true_iff {source target : NodeId} {edges : List Edge} :
    createsCycle source target edges = true ↔ Edge.Leads edges target source := by
  rw [createsCycle, leadsTo_eq_true_iff (by simp) (by simp)]
  simp

/-! ### On a circle or behind one -/

/-- The node lies on a circle or behind one. -/
def Edge.Behind (edges : List Edge) (a : NodeId) : Prop :=
  ∃ c, TransGen (Edge.Joins edges) c c ∧ Edge.Leads edges c a

/-- A node behind a circle has a predecessor behind it. -/
theorem Edge.Behind.exists_joins {edges : List Edge} {a : NodeId} (h : Edge.Behind edges a) :
    ∃ b, Edge.Joins edges b a ∧ Edge.Behind edges b := by
  obtain ⟨c, hc, hca⟩ := h
  rcases ReflTransGen.cases_tail hca with rfl | ⟨b, hcb, hba⟩
  · obtain ⟨b, hcb, hba⟩ := TransGen.tail'_iff.1 hc
    exact ⟨b, hba, a, hc, hcb⟩
  · exact ⟨b, hba, c, hc, hcb⟩

theorem Edge.acyclic_iff_forall_not_behind {edges : List Edge} :
    Edge.Acyclic edges ↔ ∀ a, ¬ Edge.Behind edges a := by
  constructor
  · rintro h a ⟨c, hc, -⟩
    exact h c hc
  · intro h a ha
    exact h a ⟨a, ha, .refl⟩

/-! ### Degrees -/

/-- Lowering the degree of a node changes the row of that node and no other. -/
theorem Degrees.lookup_lower (d : Degrees) (id v : NodeId) :
    (d.lower id).lookup v = (d.lookup v).map fun n => if v = id then n - 1 else n := by
  induction d with
  | nil => rfl
  | cons p d ih =>
    obtain ⟨k, n⟩ := p
    rw [Degrees.lower_cons, List.lookup_cons, List.lookup_cons]
    by_cases h : v = k
    · subst h
      simp
    · have h' : (v == k) = false := by simpa using h
      simp [h', ih]

/-- The edges into `v` from nodes not settled, once the edges of one more node are taken away. -/
theorem countP_settled_cons (edges : List Edge) {settled : List NodeId} {id : NodeId}
    (hid : id ∉ settled) (v : NodeId) :
    edges.countP (fun e => e.target = v ∧ e.source ∉ settled) =
      edges.countP (fun e => e.target = v ∧ e.source ∉ id :: settled) +
        (Edge.targetsOf edges id).count v := by
  induction edges with
  | nil => rfl
  | cons e edges ih =>
    by_cases hs : e.source = id
    · subst hs
      by_cases ht : e.target = v
      · simp [Edge.targetsOf, hid, ht] at ih ⊢
        omega
      · simp [Edge.targetsOf, ht] at ih ⊢
        omega
    · simp only [List.countP_cons, ih, Edge.targetsOf, List.mem_cons, hs, false_or,
        List.filter_cons, decide_false, Bool.false_eq_true, if_false]
      omega

/-! ### Settling -/

/-- What holds at every moment while a graph is being settled.  The targets `pending` are those of
the edges that leave the node settled last and are still to be taken away. -/
structure Settling (ids : List NodeId) (edges : List Edge) (degrees : Degrees)
    (settled queue pending : List NodeId) : Prop where
  /-- A degree counts the edges from nodes not settled and those still to be taken away. -/
  count : ∀ v ∈ ids, degrees.lookup v =
    some (edges.countP (fun e => e.target = v ∧ e.source ∉ settled) + pending.count v)
  /-- A node is settled or waits exactly if nothing enters it. -/
  free : ∀ v ∈ ids, degrees.lookup v = some 0 ↔ v ∈ settled ∨ v ∈ queue
  /-- Only nodes of the graph wait. -/
  known : ∀ v ∈ queue, v ∈ ids
  /-- No node waits twice. -/
  nodup : queue.Nodup
  /-- No node waits that was settled already. -/
  fresh : ∀ v ∈ queue, v ∉ settled
  /-- No settled node lies behind a circle. -/
  spared : ∀ v ∈ settled, ¬ Edge.Behind edges v

namespace Settling

variable {ids : List NodeId} {edges : List Edge} {degrees : Degrees}
  {settled queue pending : List NodeId} {id : NodeId}

/-- A node that nothing enters has only settled predecessors. -/
theorem mem_settled_of_joins (h : Settling ids edges degrees settled queue []) {v : NodeId}
    (hv : v ∈ ids) (hfree : v ∈ settled ∨ v ∈ queue) {b : NodeId} (hb : Edge.Joins edges b v) :
    b ∈ settled := by
  by_contra hnot
  obtain ⟨e, he, rfl, rfl⟩ := hb
  have hcount := h.count _ hv
  rw [(h.free _ hv).2 hfree, Option.some.injEq, eq_comm, Nat.add_eq_zero_iff,
    List.countP_eq_zero] at hcount
  exact hcount.1 e he (by simpa using hnot)

/-- Settling the first node of the queue; its edges are still to be taken away. -/
theorem settle_head (h : Settling ids edges degrees settled (id :: queue) []) :
    Settling ids edges degrees (id :: settled) queue (Edge.targetsOf edges id) where
  count v hv := by
    have hid : id ∉ settled := h.fresh id List.mem_cons_self
    rw [h.count v hv, countP_settled_cons edges hid v]
    rfl
  free v hv := by
    rw [h.free v hv, List.mem_cons, List.mem_cons]
    tauto
  known v hv := h.known v (List.mem_cons_of_mem _ hv)
  nodup := h.nodup.of_cons
  fresh v hv := by
    have hne : v ≠ id := fun heq => (List.nodup_cons.1 h.nodup).1 (heq ▸ hv)
    simpa [hne] using h.fresh v (List.mem_cons_of_mem _ hv)
  spared v hv := by
    rcases List.mem_cons.1 hv with rfl | hv
    · -- a circle in front of the node would be in front of one of its predecessors
      intro hbehind
      obtain ⟨b, hjoins, hb⟩ := hbehind.exists_joins
      have hids := h.known v List.mem_cons_self
      exact h.spared b
        (h.mem_settled_of_joins hids (Or.inr List.mem_cons_self) hjoins) hb
    · exact h.spared v hv

/-- Taking one edge away lowers the degree of its target, which is queued when no edge into it is
left.  The account of who is settled, queued and still pending stays true. -/
theorem relax (hid : id ∈ ids)
    (h : Settling ids edges degrees settled queue (id :: pending)) :
    Settling ids edges (AgentFlow.relax (degrees, queue) id).1 settled
      (AgentFlow.relax (degrees, queue) id).2 pending := by
  have hcount := h.count id hid
  rw [List.count_cons_self, ← Nat.add_assoc] at hcount
  -- something enters the node, so it neither is settled nor waits
  have hnew : ¬ (id ∈ settled ∨ id ∈ queue) := by
    rw [← h.free id hid, hcount]
    simp
  rw [not_or] at hnew
  have hlower : ∀ v ∈ ids, (degrees.lower id).lookup v =
      some (edges.countP (fun e => e.target = v ∧ e.source ∉ settled) + pending.count v) := by
    intro v hv
    rw [Degrees.lookup_lower]
    by_cases hvid : v = id
    · subst hvid
      rw [hcount]
      simp
    · rw [h.count v hv, List.count_cons_of_ne (Ne.symm hvid)]
      simp [hvid]
  by_cases hone : degrees.lookup id = some 1
  · have hqueue : AgentFlow.relax (degrees, queue) id = (degrees.lower id, queue ++ [id]) := by
      simp [AgentFlow.relax, hone]
    rw [hqueue]
    refine ⟨hlower, fun v hv => ?_, fun v hv => ?_, ?_, fun v hv => ?_, h.spared⟩
    · rw [Degrees.lookup_lower, List.mem_append, List.mem_singleton]
      by_cases hvid : v = id
      · subst hvid
        simp [hone]
      · simp only [hvid, if_false, Option.map_id', or_false]
        exact h.free v hv
    · rcases List.mem_append.1 hv with hv | hv
      · exact h.known v hv
      · exact List.mem_singleton.1 hv ▸ hid
    · exact h.nodup.append (List.nodup_singleton id) (by simpa using hnew.2)
    · rcases List.mem_append.1 hv with hv | hv
      · exact h.fresh v hv
      · exact List.mem_singleton.1 hv ▸ hnew.1
  · have hqueue : AgentFlow.relax (degrees, queue) id = (degrees.lower id, queue) := by
      simp [AgentFlow.relax, hone]
    rw [hqueue]
    refine ⟨hlower, fun v hv => ?_, h.known, h.nodup, h.fresh, h.spared⟩
    rw [← h.free v hv, Degrees.lookup_lower]
    by_cases hvid : v = id
    · subst hvid
      rw [hcount] at hone ⊢
      simp only [Option.map_some, if_true, Option.some.injEq] at hone ⊢
      omega
    · simp [hvid]

/-- Taking away all the edges that leave the node settled last. -/
theorem foldl_relax (hpending : ∀ v ∈ pending, v ∈ ids)
    (h : Settling ids edges degrees settled queue pending) :
    Settling ids edges (pending.foldl AgentFlow.relax (degrees, queue)).1 settled
      (pending.foldl AgentFlow.relax (degrees, queue)).2 [] := by
  induction pending generalizing degrees queue with
  | nil => exact h
  | cons id pending ih =>
    exact ih (fun v hv => hpending v (List.mem_cons_of_mem _ hv))
      (h.relax (hpending id List.mem_cons_self))

/-- Settling ends with an empty queue. -/
theorem settle (hedges : ∀ e ∈ edges, e.target ∈ ids)
    (h : Settling ids edges degrees settled queue []) :
    ∃ d, Settling ids edges d (AgentFlow.settle edges degrees settled queue) [] [] := by
  fun_induction AgentFlow.settle edges degrees settled queue with
  | case1 degrees settled => exact ⟨degrees, h⟩
  | case2 degrees settled id queue s ih =>
    refine ih (h.settle_head.foldl_relax fun v hv => ?_)
    obtain ⟨e, he, -, rfl⟩ := Edge.mem_targetsOf.1 hv
    exact hedges e he

/-- Once the queue is empty, what is not settled lies behind a circle. -/
theorem behind_of_not_mem (h : Settling ids edges degrees settled [] [])
    (hedges : ∀ e ∈ edges, e.source ∈ ids) {v : NodeId} (hv : v ∈ ids) (hnot : v ∉ settled) :
    Edge.Behind edges v := by
  have hpred : ∀ a ∈ ids.filter (· ∉ settled),
      ∃ b ∈ ids.filter (· ∉ settled), Edge.Joins edges b a := by
    intro a ha
    obtain ⟨haids, hanot⟩ : a ∈ ids ∧ a ∉ settled := by simpa using ha
    have hcount := h.count a haids
    have hpos : ¬ degrees.lookup a = some 0 := by simpa [h.free a haids] using hanot
    rw [hcount, Option.some.injEq, List.count_nil, Nat.add_zero, List.countP_eq_zero] at hpos
    push Not at hpos
    obtain ⟨e, he, hprop⟩ := hpos
    obtain ⟨htarget, hsource⟩ : e.target = a ∧ e.source ∉ settled := by simpa using hprop
    exact ⟨e.source, by simpa using ⟨hedges e he, hsource⟩, e, he, rfl, htarget⟩
  exact exists_circle_of_forall_exists hpred (by simpa using ⟨hv, hnot⟩)

end Settling

/-! ### The whole graph -/

namespace Graph

variable {g : Graph}

theorem mem_innerEdges {e : Edge} :
    e ∈ g.innerEdges ↔ e ∈ g.edges ∧ e.source ∈ g.nodeIds ∧ e.target ∈ g.nodeIds := by
  simp [innerEdges]

theorem lookup_degrees {v : NodeId} (hv : v ∈ g.nodeIds) :
    g.degrees.lookup v = some (g.innerEdges.countP (·.target = v)) :=
  lookup_map_pair _ _ (List.mem_eraseDups.2 hv)

theorem free_degrees :
    g.degrees.free =
      g.nodeIds.eraseDups.filter fun id => g.innerEdges.countP (·.target = id) = 0 := by
  simp [Degrees.free, degrees, List.filter_map, Function.comp_def]

/-- At the start nothing is settled, and the nodes wait that no edge enters. -/
theorem settling_degrees :
    Settling g.nodeIds g.innerEdges g.degrees [] g.degrees.free [] where
  count v hv := by
    rw [lookup_degrees hv]
    simp
  free v hv := by
    rw [lookup_degrees hv, free_degrees]
    simp [List.mem_eraseDups, hv]
  known v hv := by
    rw [free_degrees, List.mem_filter] at hv
    exact List.mem_eraseDups.1 hv.1
  nodup := by
    rw [free_degrees]
    exact (nodup_eraseDups _).filter _
  fresh v _ := by simp
  spared v hv := by simp at hv

/-- **The nodes that are never settled are those on circles and behind them.** -/
theorem mem_cyclicNodes_iff {v : NodeId} :
    v ∈ g.cyclicNodes ↔ v ∈ g.nodeIds ∧ Edge.Behind g.innerEdges v := by
  obtain ⟨d, h⟩ := settling_degrees (g := g).settle fun e he => (mem_innerEdges.1 he).2.2
  have hmem : v ∈ g.cyclicNodes ↔
      v ∈ g.nodeIds ∧ v ∉ settle g.innerEdges g.degrees [] g.degrees.free := by
    simp [cyclicNodes]
  rw [hmem]
  refine and_congr_right fun hv => ⟨fun hnot => ?_, fun hbehind hsettled => ?_⟩
  · exact h.behind_of_not_mem (fun e he => (mem_innerEdges.1 he).2.1) hv hnot
  · exact h.spared v hsettled hbehind

/-- Everything is settled exactly if there is no circle. -/
theorem cyclicNodes_eq_nil_iff : g.cyclicNodes = [] ↔ Edge.Acyclic g.innerEdges := by
  rw [Edge.acyclic_iff_forall_not_behind, List.eq_nil_iff_forall_not_mem]
  refine forall_congr' fun v => ?_
  rw [mem_cyclicNodes_iff, not_and]
  refine ⟨fun h hbehind => ?_, fun h _ => h⟩
  obtain ⟨b, ⟨e, he, -, rfl⟩, -⟩ := hbehind.exists_joins
  exact h (mem_innerEdges.1 he).2.2 hbehind

end Graph

end AgentFlow

import AgentFlow.Proofs.Path
import AgentFlow.Proofs.Shape
import AgentFlow.Propagation.Downstream

/-!
# Where messages go

A message travels along edges and through agents.  The search for the runners downstream is held
against the paths that a message can take.

## Main definitions

* `Graph.HasKind`, `Graph.Passes`, `Graph.Carries`, `Graph.Feeds`: the paths of a message.
* `Graph.Walking`: what holds at every moment of the search.
* `Graph.Strays`: a message comes to an edge that ends nowhere.

## Main results

* `Graph.Walking.walk`: how the search ends.
* `Graph.downstream_exact`: **the search fails exactly if no node has the id or a message strays,
  and otherwise finds exactly the runners that a message arrives at.**
* `Graph.SameShape.downstream_eq`: the search only looks at the shape of a graph.
-/

namespace AgentFlow
namespace Graph

open Relation

/-! ### The paths of a message -/

/-- The id is that of a node of a kind. -/
def HasKind (g : Graph) (id : NodeId) (k : Kind) : Prop :=
  ∃ n, g.node? id = some n ∧ n.kind = k

/-- A message at the first node is passed on to the second, which is an agent. -/
def Passes (g : Graph) (a b : NodeId) : Prop :=
  Edge.Joins g.edges a b ∧ g.HasKind b .agent

/-- A message at the first node is carried to the second, through any number of agents. -/
def Carries (g : Graph) : NodeId → NodeId → Prop :=
  ReflTransGen g.Passes

/-- A message at the first node arrives at the second, with nothing but agents in between. -/
def Feeds (g : Graph) (a b : NodeId) : Prop :=
  ∃ c, g.Carries a c ∧ Edge.Joins g.edges c b

variable {g h : Graph}

theorem hasKind_iff_of_node? {id : NodeId} {n : Node} {k : Kind} (hn : g.node? id = some n) :
    g.HasKind id k ↔ n.kind = k := by
  simp [HasKind, hn]

/-- Where no id is repeated, an id has the kind of its node. -/
theorem hasKind_iff (hnodup : g.nodeIds.Nodup) {id : NodeId} {k : Kind} :
    g.HasKind id k ↔ ∃ n ∈ g.nodes, n.id = id ∧ n.kind = k := by
  simp only [HasKind, node?_eq_some_iff hnodup, and_assoc]

/-! ### The search -/

/-- An edge that was followed: its target is a node, and if that is an agent it was visited, if it
is a runner it was noted. -/
def Followed (g : Graph) (visited runners : List NodeId) (e : Edge) : Prop :=
  e.target ∈ g.nodeIds ∧ (g.HasKind e.target .agent → e.target ∈ visited) ∧
    (g.HasKind e.target .runner → e.target ∈ runners)

/-- What holds at every moment of the search.  Nothing is claimed about nodes that were not visited:
that all that can be reached is visited follows when the stack is empty. -/
structure Walking (g : Graph) (start : NodeId) (visited runners : List NodeId)
    (stack : List (List Edge)) : Prop where
  /-- The start was visited. -/
  start_mem : start ∈ visited
  /-- A message is carried to every node that was visited. -/
  carried : ∀ a ∈ visited, g.Carries start a
  /-- The edges on the stack leave nodes that were visited. -/
  opened : ∀ es ∈ stack, ∀ e ∈ es, e ∈ g.edges ∧ e.source ∈ visited
  /-- Every other edge that leaves a visited node was followed. -/
  followed : ∀ e ∈ g.edges, e.source ∈ visited →
    (∃ es ∈ stack, e ∈ es) ∨ g.Followed visited runners e
  /-- A message arrives at every runner that was noted. -/
  fed : ∀ r ∈ runners, g.Feeds start r ∧ g.HasKind r .runner
  /-- No runner was noted twice. -/
  nodup : runners.Nodup

theorem Followed.mono {visited visited' runners runners' : List NodeId} {e : Edge}
    (h : g.Followed visited runners e) (hvisited : ∀ a ∈ visited, a ∈ visited')
    (hrunners : ∀ r ∈ runners, r ∈ runners') : g.Followed visited' runners' e :=
  ⟨h.1, fun hk => hvisited _ (h.2.1 hk), fun hk => hrunners _ (h.2.2 hk)⟩

namespace Walking

variable {start : NodeId} {visited runners : List NodeId} {e : Edge} {es : List Edge}
  {stack : List (List Edge)} {n : Node}

/-- All edges of an agent were followed, and the search goes back to where it entered the agent. -/
theorem pop (h : Walking g start visited runners ([] :: stack)) :
    Walking g start visited runners stack where
  start_mem := h.start_mem
  carried := h.carried
  opened xs hxs := h.opened xs (List.mem_cons_of_mem _ hxs)
  followed x hx hsource := by
    rcases h.followed x hx hsource with ⟨xs, hxs, hmem⟩ | hdone
    · rcases List.mem_cons.1 hxs with rfl | hxs
      · simp at hmem
      · exact Or.inl ⟨xs, hxs, hmem⟩
    · exact Or.inr hdone
  fed := h.fed
  nodup := h.nodup

/-- The first edge on the stack leaves a node to which a message is carried. -/
theorem head_edge (h : Walking g start visited runners ((e :: es) :: stack)) :
    e ∈ g.edges ∧ g.Carries start e.source := by
  obtain ⟨hmem, hsource⟩ := h.opened _ List.mem_cons_self e List.mem_cons_self
  exact ⟨hmem, h.carried _ hsource⟩

/-- The first edge on the stack is done with once it counts as followed. -/
theorem advance (h : Walking g start visited runners ((e :: es) :: stack))
    (more : List (List Edge)) {visited' runners' : List NodeId}
    (hvisited : ∀ a ∈ visited, a ∈ visited') (hrunners : ∀ r ∈ runners, r ∈ runners')
    (hdone : g.Followed visited' runners' e) {x : Edge} (hx : x ∈ g.edges)
    (hsource : x.source ∈ visited) :
    (∃ xs ∈ more ++ es :: stack, x ∈ xs) ∨ g.Followed visited' runners' x := by
  rcases h.followed x hx hsource with ⟨xs, hxs, hmem⟩ | hx
  · rcases List.mem_cons.1 hxs with rfl | hxs
    · rcases List.mem_cons.1 hmem with rfl | hmem
      · exact Or.inr hdone
      · exact Or.inl ⟨es, by simp, hmem⟩
    · exact Or.inl ⟨xs, by simp [hxs], hmem⟩
  · exact Or.inr (hx.mono hvisited hrunners)

theorem opened_tail (h : Walking g start visited runners ((e :: es) :: stack)) :
    ∀ xs ∈ es :: stack, ∀ x ∈ xs, x ∈ g.edges ∧ x.source ∈ visited := by
  intro xs hxs x hx
  rcases List.mem_cons.1 hxs with rfl | hxs
  · exact h.opened _ List.mem_cons_self x (List.mem_cons_of_mem _ hx)
  · exact h.opened xs (List.mem_cons_of_mem _ hxs) x hx

/-- The edge leads to a runner, which is noted unless it was before. -/
theorem note (h : Walking g start visited runners ((e :: es) :: stack))
    (hn : g.node? e.target = some n) (hkind : n.kind = .runner) :
    Walking g start visited (if n.id ∈ runners then runners else runners ++ [n.id])
      (es :: stack) := by
  obtain ⟨hnmem, hid⟩ := mem_and_id_of_node? hn
  obtain ⟨hedge, hcarried⟩ := h.head_edge
  -- whether or not the runner was noted before, the noted ones are the old ones and it
  have hrunners : ∀ r, r ∈ (if n.id ∈ runners then runners else runners ++ [n.id]) ↔
      r ∈ runners ∨ r = e.target := by
    intro r
    rw [hid]
    split
    · next hmem => exact ⟨Or.inl, fun hr => hr.elim (fun hr => hr) (fun hr => hr ▸ hmem)⟩
    · simp
  have hdone : g.Followed visited
      (if n.id ∈ runners then runners else runners ++ [n.id]) e := by
    refine ⟨hid ▸ id_mem_nodeIds hnmem, fun hk => ?_, fun _ => (hrunners _).2 (Or.inr rfl)⟩
    rw [hasKind_iff_of_node? hn, hkind] at hk
    exact absurd hk (by decide)
  refine ⟨h.start_mem, h.carried, h.opened_tail, fun x hx hsource => ?_, fun r hr => ?_, ?_⟩
  · exact h.advance [] (fun _ ha => ha) (fun r hr => (hrunners r).2 (Or.inl hr)) hdone hx
      hsource
  · rcases (hrunners r).1 hr with hr | rfl
    · exact h.fed r hr
    · exact ⟨⟨e.source, hcarried, e, hedge, rfl, rfl⟩, n, hn, hkind⟩
  · split
    · exact h.nodup
    · next hnot => exact h.nodup.append (List.nodup_singleton _) (by simpa using hnot)

/-- The edge leads to an agent that was not visited before, so the edges that leave it are put on
the stack. -/
theorem enter (h : Walking g start visited runners ((e :: es) :: stack))
    (hn : g.node? e.target = some n) (hkind : n.kind = .agent) :
    Walking g start (n.id :: visited) runners (g.outgoing n.id :: es :: stack) := by
  obtain ⟨hnmem, hid⟩ := mem_and_id_of_node? hn
  obtain ⟨hedge, hcarried⟩ := h.head_edge
  have hdone : g.Followed (n.id :: visited) runners e := by
    refine ⟨hid ▸ id_mem_nodeIds hnmem, fun _ => hid ▸ List.mem_cons_self, fun hk => ?_⟩
    rw [hasKind_iff_of_node? hn, hkind] at hk
    exact absurd hk (by decide)
  refine ⟨List.mem_cons_of_mem _ h.start_mem, fun a ha => ?_, fun xs hxs x hx => ?_,
    fun x hx hsource => ?_, h.fed, h.nodup⟩
  · rcases List.mem_cons.1 ha with rfl | ha
    · -- the way to the agent is the way to the source of the edge, and the edge
      exact hcarried.tail ⟨⟨e, hedge, rfl, hid.symm⟩, n, hid ▸ hn, hkind⟩
    · exact h.carried a ha
  · rcases List.mem_cons.1 hxs with rfl | hxs
    · obtain ⟨hx, hsource⟩ : x ∈ g.edges ∧ x.source = n.id := by simpa [outgoing] using hx
      exact ⟨hx, hsource ▸ List.mem_cons_self⟩
    · obtain ⟨hx, hsource⟩ := h.opened_tail xs hxs x hx
      exact ⟨hx, List.mem_cons_of_mem _ hsource⟩
  · rcases List.mem_cons.1 hsource with hsource | hsource
    · exact Or.inl ⟨g.outgoing n.id, List.mem_cons_self, by simpa [outgoing] using ⟨hx, hsource⟩⟩
    · exact h.advance [g.outgoing n.id] (fun _ => List.mem_cons_of_mem _)
        (fun _ hr => hr) hdone hx hsource

/-- The edge leads no further, either because the agent was visited or because messages do not pass
through a node of this kind. -/
theorem skip (h : Walking g start visited runners ((e :: es) :: stack))
    (hn : g.node? e.target = some n) (hrunner : ¬ n.kind = .runner)
    (hagent : ¬ (n.kind = .agent ∧ n.id ∉ visited)) :
    Walking g start visited runners (es :: stack) := by
  obtain ⟨hnmem, hid⟩ := mem_and_id_of_node? hn
  have hdone : g.Followed visited runners e := by
    refine ⟨hid ▸ id_mem_nodeIds hnmem, fun hk => ?_, fun hk => ?_⟩
    · rw [hasKind_iff_of_node? hn] at hk
      exact hid ▸ not_not.1 fun hnot => hagent ⟨hk, hnot⟩
    · exact absurd ((hasKind_iff_of_node? hn).1 hk) hrunner
  refine ⟨h.start_mem, h.carried, h.opened_tail, fun x hx hsource => ?_, h.fed, h.nodup⟩
  exact h.advance [] (fun _ ha => ha) (fun _ hr => hr) hdone hx hsource

/-- The search ends with an empty stack, or at an edge on the way that ends nowhere. -/
theorem walk (h : Walking g start visited runners stack) :
    (∃ visited' rs, g.walk visited runners stack = .ok rs ∧ Walking g start visited' rs []) ∨
      ∃ e ∈ g.edges, g.Carries start e.source ∧ e.target ∉ g.nodeIds ∧
        g.walk visited runners stack = .error { node := e.target, edge := some e.id } := by
  -- each step of the search is one of the lemmas above
  fun_induction Graph.walk g visited runners stack with
  | case1 visited runners => exact Or.inl ⟨visited, runners, rfl, h⟩
  | case2 visited runners stack ih => exact ih h.pop
  | case3 visited runners e es stack hnone =>
    obtain ⟨hedge, hcarried⟩ := h.head_edge
    exact Or.inr ⟨e, hedge, hcarried, node?_eq_none_iff.1 hnone, rfl⟩
  | case4 visited runners e es stack n hn hkind ih => exact ih (h.note hn hkind)
  | case5 visited runners e es stack n hn _ hagent ih => exact ih (h.enter hn hagent.1)
  | case6 visited runners e es stack n hn hrunner hagent ih => exact ih (h.skip hn hrunner hagent)

/-- Once the stack is empty, every node that a message is carried to was visited. -/
theorem mem_visited (h : Walking g start visited runners []) {a : NodeId}
    (ha : g.Carries start a) : a ∈ visited := by
  induction ha with
  | refl => exact h.start_mem
  | tail _ hpass ih =>
    obtain ⟨⟨e, he, rfl, rfl⟩, hagent⟩ := hpass
    rcases h.followed e he ih with ⟨_, hes, _⟩ | hdone
    · simp at hes
    · exact hdone.2.1 hagent

/-- Once the stack is empty, every edge on the way was followed. -/
theorem followed_of_carries (h : Walking g start visited runners []) (he : e ∈ g.edges)
    (hcarried : g.Carries start e.source) : g.Followed visited runners e := by
  rcases h.followed e he (h.mem_visited hcarried) with ⟨_, hes, _⟩ | hdone
  · simp at hes
  · exact hdone

/-- Once the stack is empty, the runners that were noted are those that a message arrives at. -/
theorem mem_runners_iff (h : Walking g start visited runners []) {r : NodeId} :
    r ∈ runners ↔ g.Feeds start r ∧ g.HasKind r .runner := by
  refine ⟨h.fed r, ?_⟩
  rintro ⟨⟨c, hc, e, he, rfl, rfl⟩, hrunner⟩
  exact (h.followed_of_carries he hc).2.2 hrunner

end Walking

/-- At first nothing has been followed, and the edges to follow are those that leave the start. -/
theorem walking_start {start : NodeId} : Walking g start [start] [] [g.outgoing start] where
  start_mem := List.mem_singleton_self start
  carried a ha := by
    obtain rfl := List.mem_singleton.1 ha
    exact .refl
  opened es hes e he := by
    obtain rfl := List.mem_singleton.1 hes
    simpa [outgoing] using he
  followed e he hsource := Or.inl ⟨g.outgoing start, by simp, by
    simpa [outgoing] using ⟨he, List.mem_singleton.1 hsource⟩⟩
  fed r hr := by simp at hr
  nodup := List.nodup_nil

/-! ### Runners downstream -/

theorem downstream_eq_walk {id : NodeId} {n : Node} (hn : g.firstNode? id = some n) :
    g.downstream id = g.walk [id] [] [g.outgoing id] := by
  simp [downstream, requireNode, hn, bind, Except.bind]

theorem downstream_of_not_mem {id : NodeId} (hid : id ∉ g.nodeIds) :
    g.downstream id = .error { node := id } := by
  simp [downstream, requireNode, firstNode?_eq_none_iff.2 hid, bind, Except.bind]

/-- A message from the node strays: some edge that leaves a node it is carried to ends nowhere. -/
def Strays (g : Graph) (id : NodeId) : Prop :=
  ∃ e ∈ g.edges, g.Carries id e.source ∧ e.target ∉ g.nodeIds

theorem Closed.not_strays (hclosed : g.Closed) (id : NodeId) : ¬ g.Strays id := by
  rintro ⟨e, he, -, hnot⟩
  exact hnot (hclosed e he).2

/-- Where no message strays the search succeeds, and finds exactly the runners that a message
arrives at. -/
theorem exists_downstream_of_not_strays {id : NodeId} (hid : id ∈ g.nodeIds)
    (hnot : ¬ g.Strays id) :
    ∃ rs, g.downstream id = .ok rs ∧ rs.Nodup ∧
      ∀ r, r ∈ rs ↔ g.Feeds id r ∧ g.HasKind r .runner := by
  obtain ⟨n, hn⟩ := exists_firstNode? hid
  have hstart : Walking g id [id] [] [g.outgoing id] := walking_start
  rw [downstream_eq_walk hn]
  rcases hstart.walk with ⟨visited, rs, hrs, h⟩ | ⟨e, he, hcarried, htarget, -⟩
  · exact ⟨rs, hrs, h.nodup, fun r => h.mem_runners_iff⟩
  · -- the search fails only at an edge that ends nowhere
    exact absurd ⟨e, he, hcarried, htarget⟩ hnot

/-- Where a message strays the search fails, at an edge that ends nowhere. -/
theorem exists_downstream_of_strays {id : NodeId} (hid : id ∈ g.nodeIds) (hstrays : g.Strays id) :
    ∃ e ∈ g.edges, g.Carries id e.source ∧ e.target ∉ g.nodeIds ∧
      g.downstream id = .error { node := e.target, edge := some e.id } := by
  obtain ⟨n, hn⟩ := exists_firstNode? hid
  have hstart : Walking g id [id] [] [g.outgoing id] := walking_start
  rw [downstream_eq_walk hn]
  rcases hstart.walk with ⟨visited, rs, -, h⟩ | hfails
  · -- a search that ends has followed every edge on the way
    obtain ⟨e, he, hcarried, htarget⟩ := hstrays
    exact absurd (h.followed_of_carries he hcarried).1 htarget
  · exact hfails

/-- **The search is exact, in every graph and from every id.**  It fails exactly if no node has the
id or a message from there strays, and otherwise finds each runner that a message arrives at, once.
An id has the kind of the last node with it. -/
theorem downstream_exact (g : Graph) (id : NodeId) :
    ((∃ x, g.downstream id = .error x) ↔ id ∉ g.nodeIds ∨ g.Strays id) ∧
      (¬ (id ∉ g.nodeIds ∨ g.Strays id) → ∃ rs, g.downstream id = .ok rs ∧ rs.Nodup ∧
        ∀ r, r ∈ rs ↔ g.Feeds id r ∧ g.HasKind r .runner) := by
  have hfinds : ¬ (id ∉ g.nodeIds ∨ g.Strays id) → ∃ rs, g.downstream id = .ok rs ∧ rs.Nodup ∧
      ∀ r, r ∈ rs ↔ g.Feeds id r ∧ g.HasKind r .runner := by
    rw [not_or, not_not]
    exact fun ⟨hid, hnot⟩ => exists_downstream_of_not_strays hid hnot
  refine ⟨⟨?_, ?_⟩, hfinds⟩
  · rintro ⟨x, hx⟩
    by_contra hnot
    obtain ⟨rs, hrs, -⟩ := hfinds hnot
    exact absurd (hx.symm.trans hrs) (by simp)
  · intro h
    by_cases hid : id ∈ g.nodeIds
    · obtain ⟨e, -, -, -, herror⟩ :=
        exists_downstream_of_strays hid (h.resolve_left (not_not.2 hid))
      exact ⟨_, herror⟩
    · exact ⟨_, downstream_of_not_mem hid⟩

/-- In a closed graph the search succeeds. -/
theorem exists_downstream (hclosed : g.Closed) {id : NodeId} (hid : id ∈ g.nodeIds) :
    ∃ rs, g.downstream id = .ok rs ∧ rs.Nodup ∧
      ∀ r, r ∈ rs ↔ g.Feeds id r ∧ g.HasKind r .runner :=
  exists_downstream_of_not_strays hid (hclosed.not_strays id)

/-! ### Only the shape matters -/

/-- A node found by its id has a counterpart of its kind in a graph of the same shape. -/
theorem SameShape.node?_map (hgh : SameShape g h) (id : NodeId) :
    (h.node? id).map (fun n => (n.id, n.kind)) = (g.node? id).map fun n => (n.id, n.kind) := by
  have hfind : ∀ k : Graph, (k.node? id).map (fun n => (n.id, n.kind)) =
      k.shape.reverse.find? (·.1 = id) := by
    intro k
    rw [node?, Graph.shape, ← List.map_reverse, List.find?_map]
    rfl
  rw [hfind, hfind, hgh.shape]

theorem SameShape.exists_node?_eq (hgh : SameShape g h) {id : NodeId} {n : Node}
    (hn : g.node? id = some n) : ∃ m, h.node? id = some m ∧ m.id = n.id ∧ m.kind = n.kind := by
  have hmap := hgh.node?_map id
  rw [hn, Option.map_some, Option.map_eq_some_iff] at hmap
  obtain ⟨m, hm, heq⟩ := hmap
  exact ⟨m, hm, congrArg Prod.fst heq, congrArg Prod.snd heq⟩

theorem SameShape.hasKind_iff (hgh : SameShape g h) {id : NodeId} {k : Kind} :
    h.HasKind id k ↔ g.HasKind id k := by
  have hkind : ∀ f : Graph, f.HasKind id k ↔
      ∃ p, (f.node? id).map (fun n => (n.id, n.kind)) = some p ∧ p.2 = k := by
    intro f
    simp [HasKind]
  rw [hkind, hkind, hgh.node?_map]

/-- The walk is the same in two graphs that differ in the contents of their nodes only. -/
theorem SameShape.walk_eq (hgh : SameShape g h) (visited runners : List NodeId)
    (stack : List (List Edge)) : h.walk visited runners stack = g.walk visited runners stack := by
  -- along the walk through `g`: all it asks for are edges, ids and kinds, on which the graphs agree
  fun_induction Graph.walk g visited runners stack with
  | case1 visited runners => rw [walk]
  | case2 visited runners stack ih =>
    rw [walk]
    exact ih
  | case3 visited runners e es stack hnone =>
    have hmap := hgh.node?_map e.target
    rw [hnone, Option.map_none, Option.map_eq_none_iff] at hmap
    rw [walk, hmap]
  | case4 visited runners e es stack n hn hkind ih =>
    obtain ⟨m, hm, hid, hmkind⟩ := hgh.exists_node?_eq hn
    rw [walk, hm]
    simp only [hid, hmkind]
    rw [if_pos hkind]
    exact ih
  | case5 visited runners e es stack n hn hrunner hagent ih =>
    obtain ⟨m, hm, hid, hmkind⟩ := hgh.exists_node?_eq hn
    have hout : h.outgoing n.id = g.outgoing n.id := by rw [outgoing, outgoing, hgh.edges]
    rw [walk, hm]
    simp only [hid, hmkind]
    rw [if_neg hrunner, if_pos hagent, hout]
    exact ih
  | case6 visited runners e es stack n hn hrunner hagent ih =>
    obtain ⟨m, hm, hid, hmkind⟩ := hgh.exists_node?_eq hn
    rw [walk, hm]
    simp only [hid, hmkind]
    rw [if_neg hrunner, if_neg hagent]
    exact ih

/-- The search only looks at the shape of a graph, so the runners that hear an input are the same
after an edit. -/
theorem SameShape.downstream_eq (hgh : SameShape g h) (id : NodeId) :
    h.downstream id = g.downstream id := by
  by_cases hid : id ∈ g.nodeIds
  · obtain ⟨n, hn⟩ := exists_firstNode? hid
    obtain ⟨m, hm⟩ := exists_firstNode? (g := h) (by rw [hgh.nodeIds_eq]; exact hid)
    have hout : h.outgoing id = g.outgoing id := by rw [outgoing, outgoing, hgh.edges]
    rw [downstream_eq_walk hm, downstream_eq_walk hn, hout]
    exact hgh.walk_eq _ _ _
  · have hid' : id ∉ h.nodeIds := by rwa [hgh.nodeIds_eq]
    rw [downstream_of_not_mem hid, downstream_of_not_mem hid']

theorem SameShape.feeds_iff (hgh : SameShape g h) {a b : NodeId} :
    h.Feeds a b ↔ g.Feeds a b := by
  have hpasses : h.Passes = g.Passes := by
    funext x y
    rw [Passes, Passes, hgh.edges, hgh.hasKind_iff]
  rw [Feeds, Feeds, Carries, Carries, hpasses, hgh.edges]

end Graph
end AgentFlow

import AgentFlow.Proofs.Settled

/-!
# Edges proposed one after the other

Every proposal is checked against the edges that are there, and every edge that is drawn brings all
runners up to date.  Neither leaves a trace of the order: what is asked of edges that are all drawn
is a condition on all of them together, and bringing runners up to date in between changes nothing
that the last time does not set anew.

## Main definitions

* `Graph.drawn`: a graph with more edges.
* `Graph.Drawable`: edges that can be drawn together.
* `Store.Accepts`: proposed one after the other, all edges are drawn.

## Main results

* `Graph.drawable_append_iff`: drawing edges together is drawing some first and then the others.
* `Graph.refreshed_drawn_refreshed`: bringing runners up to date before edges are drawn is in vain.
* `Store.accepts_iff`: **all proposals are accepted exactly if the edges can be drawn together.**
* `Store.run_proposals_perm`: **the order of proposals does not matter.**
-/

namespace AgentFlow

namespace Edge

variable {edges more : List Edge} {a b : NodeId}

theorem Leads.mono (hsub : ∀ e ∈ edges, e ∈ more) (h : Leads edges a b) : Leads more a b :=
  Relation.ReflTransGen.mono (fun _ _ => Joins.mono hsub) _ _ h

/-- A path either does without the new edges, or goes along one of them. -/
theorem Leads.of_append (h : Leads (edges ++ more) a b) :
    Leads edges a b ∨
      ∃ e ∈ more, Leads (edges ++ more) a e.source ∧ Leads (edges ++ more) e.target b := by
  induction h with
  | refl => exact Or.inl .refl
  | tail hpath hlast ih =>
    rcases ih with ih | ⟨e, he, hbefore, hafter⟩
    · obtain ⟨x, hx, rfl, rfl⟩ := hlast
      rcases List.mem_append.1 hx with hx | hx
      · exact Or.inl (ih.tail ⟨x, hx, rfl, rfl⟩)
      · exact Or.inr ⟨x, hx, hpath, .refl⟩
    · exact Or.inr ⟨e, he, hbefore, hafter.tail hlast⟩

end Edge

namespace Graph

variable {g h : Graph} {e : Edge} {es fs : List Edge}

/-! ### Edges that can be drawn together -/

/-- The graph with more edges. -/
def drawn (g : Graph) (es : List Edge) : Graph :=
  { g with edges := g.edges ++ es }

@[simp] theorem nodes_drawn (g : Graph) (es : List Edge) : (g.drawn es).nodes = g.nodes := rfl

@[simp] theorem edges_drawn (g : Graph) (es : List Edge) :
    (g.drawn es).edges = g.edges ++ es := rfl

theorem drawn_drawn (g : Graph) (es fs : List Edge) :
    (g.drawn es).drawn fs = g.drawn (es ++ fs) := by
  simp [drawn]

/-- The edges can be drawn together: their kinds fit, no input that one of them leaves and no runner
that one of them enters has another edge, and none of them closes a circle.  Nothing is asked of the
edges that are there already. -/
structure Drawable (g : Graph) (es : List Edge) : Prop where
  fitting : ∀ e ∈ es, ∃ s ∈ g.nodes, ∃ t ∈ g.nodes,
    s.id = e.source ∧ t.id = e.target ∧ s.kind.mayConnect t.kind = true
  inputs : ∀ e ∈ es, ∀ n ∈ g.nodes, n.id = e.source → n.kind = .input →
    ((g.edges ++ es).filter (·.source = e.source)).length ≤ 1
  runners : ∀ e ∈ es, ∀ n ∈ g.nodes, n.id = e.target → n.kind = .runner →
    ((g.edges ++ es).filter (·.target = e.target)).length ≤ 1
  noCircle : ∀ e ∈ es, ¬ Edge.Leads (g.edges ++ es) e.target e.source

theorem drawable_nil (g : Graph) : g.Drawable [] := by
  refine ⟨?_, ?_, ?_, ?_⟩ <;> simp

theorem Drawable.ends (hes : g.Drawable es) :
    ∀ e ∈ es, e.source ∈ g.nodeIds ∧ e.target ∈ g.nodeIds := by
  intro e he
  obtain ⟨s, hs, t, ht, hsource, htarget, -⟩ := hes.fitting e he
  rw [← hsource, ← htarget]
  exact ⟨id_mem_nodeIds hs, id_mem_nodeIds ht⟩

/-- The condition does not look at the order of the edges: it speaks of each edge, of how many edges
meet at a node, and of circles. -/
theorem Drawable.perm (hes : g.Drawable es) (hperm : es.Perm fs) : g.Drawable fs := by
  have hall : (g.edges ++ es).Perm (g.edges ++ fs) := hperm.append_left _
  refine ⟨?_, ?_, ?_, ?_⟩
  · intro e he
    exact hes.fitting e (hperm.mem_iff.2 he)
  · intro e he n hn hid hkind
    rw [← (hall.filter _).length_eq]
    exact hes.inputs e (hperm.mem_iff.2 he) n hn hid hkind
  · intro e he n hn hid hkind
    rw [← (hall.filter _).length_eq]
    exact hes.runners e (hperm.mem_iff.2 he) n hn hid hkind
  · intro e he hback
    exact hes.noCircle e (hperm.mem_iff.2 he) (hback.mono fun x hx => hall.mem_iff.2 hx)

/-- The condition only looks at the shape of the graph, so it does not matter what runners start
with. -/
theorem Drawable.of_sameShape (hes : g.Drawable es) (hgh : SameShape g h) : h.Drawable es := by
  refine ⟨?_, ?_, ?_, ?_⟩
  · intro e he
    obtain ⟨s, hs, t, ht, hsource, htarget, hfit⟩ := hes.fitting e he
    obtain ⟨s', hs', hsid, hskind⟩ := hgh.exists_mem hs
    obtain ⟨t', ht', htid, htkind⟩ := hgh.exists_mem ht
    refine ⟨s', hs', t', ht', hsid.trans hsource, htid.trans htarget, ?_⟩
    rw [hskind, htkind]
    exact hfit
  · intro e he n hn hid hkind
    obtain ⟨m, hm, hmid, hmkind⟩ := hgh.symm.exists_mem hn
    rw [hgh.edges]
    exact hes.inputs e he m hm (hmid.trans hid) (hmkind.trans hkind)
  · intro e he n hn hid hkind
    obtain ⟨m, hm, hmid, hmkind⟩ := hgh.symm.exists_mem hn
    rw [hgh.edges]
    exact hes.runners e he m hm (hmid.trans hid) (hmkind.trans hkind)
  · rw [hgh.edges]
    exact hes.noCircle

/-- Of edges that can be drawn together, any can be left out. -/
theorem Drawable.sublist (hes : g.Drawable es) (hsub : fs.Sublist es) : g.Drawable fs := by
  have hall : (g.edges ++ fs).Sublist (g.edges ++ es) := (List.Sublist.refl _).append hsub
  refine ⟨?_, ?_, ?_, ?_⟩
  · intro e he
    exact hes.fitting e (hsub.subset he)
  · intro e he n hn hid hkind
    exact ((hall.filter _).length_le).trans (hes.inputs e (hsub.subset he) n hn hid hkind)
  · intro e he n hn hid hkind
    exact ((hall.filter _).length_le).trans (hes.runners e (hsub.subset he) n hn hid hkind)
  · intro e he hback
    exact hes.noCircle e (hsub.subset he) (hback.mono fun x hx => hall.subset hx)

/-- Of edges that can be drawn together, the later ones can be drawn after the earlier ones. -/
theorem Drawable.drawn (hall : g.Drawable (es ++ fs)) : (g.drawn es).Drawable fs := by
  have hmem : ∀ e ∈ fs, e ∈ es ++ fs := fun e he => List.mem_append_right _ he
  have hedges : (g.drawn es).edges ++ fs = g.edges ++ (es ++ fs) := List.append_assoc _ _ _
  refine ⟨?_, ?_, ?_, ?_⟩
  · intro e he
    exact hall.fitting e (hmem e he)
  · intro e he
    rw [hedges]
    exact hall.inputs e (hmem e he)
  · intro e he
    rw [hedges]
    exact hall.runners e (hmem e he)
  · intro e he
    rw [hedges]
    exact hall.noCircle e (hmem e he)

/-- Either a later entry counts, or the entries that count are the earlier ones. -/
theorem length_filter_append_le_one_of_cases {α : Type} {p : α → Bool} {l more : List α}
    (hold : (l.filter p).length ≤ 1)
    (hmore : ∀ x ∈ more, p x = true → ((l ++ more).filter p).length ≤ 1) :
    ((l ++ more).filter p).length ≤ 1 := by
  by_cases hex : ∃ x ∈ more, p x = true
  · obtain ⟨x, hx, hpx⟩ := hex
    exact hmore x hx hpx
  · have hnone : more.filter p = [] :=
      List.filter_eq_nil_iff.2 fun x hx hpx => hex ⟨x, hx, hpx⟩
    rw [List.filter_append, hnone, List.append_nil]
    exact hold

/-- **Drawing edges together is drawing some first and then the others.**  What the first edges rule
out for the others is ruled out by the condition on all of them. -/
theorem drawable_append_iff :
    g.Drawable (es ++ fs) ↔ g.Drawable es ∧ (g.drawn es).Drawable fs := by
  refine ⟨fun hall => ⟨hall.sublist (List.sublist_append_left _ _), hall.drawn⟩, ?_⟩
  rintro ⟨hfirst, hrest⟩
  have hedges : g.edges ++ (es ++ fs) = (g.edges ++ es) ++ fs := (List.append_assoc _ _ _).symm
  refine ⟨?_, ?_, ?_, ?_⟩
  all_goals
    intro x hx
    rcases List.mem_append.1 hx with hx | hx
  · exact hfirst.fitting x hx
  · exact hrest.fitting x hx
  · intro n hn hid hkind
    rw [hedges]
    refine length_filter_append_le_one_of_cases (hfirst.inputs x hx n hn hid hkind) ?_
    intro y hy hsource
    have hsame : y.source = x.source := by simpa using hsource
    rw [← hsame]
    exact hrest.inputs y hy n hn (hid.trans hsame.symm) hkind
  · rw [hedges]
    exact hrest.inputs x hx
  · intro n hn hid hkind
    rw [hedges]
    refine length_filter_append_le_one_of_cases (hfirst.runners x hx n hn hid hkind) ?_
    intro y hy htarget
    have hsame : y.target = x.target := by simpa using htarget
    rw [← hsame]
    exact hrest.runners y hy n hn (hid.trans hsame.symm) hkind
  · rw [hedges]
    exact hrest.runners x hx
  · -- a way back along a later edge makes that edge close a circle
    intro hback
    rw [hedges] at hback
    rcases hback.of_append with hold | ⟨y, hy, hbefore, hafter⟩
    · exact hfirst.noCircle x hx hold
    · have hedge : Edge.Joins ((g.edges ++ es) ++ fs) x.source x.target := by
        exact ⟨x, by simp [hx], rfl, rfl⟩
      exact hrest.noCircle y hy ((hafter.tail hedge).trans hbefore)
  · rw [hedges]
    exact hrest.noCircle x hx

/-- One edge can be drawn exactly if it passes the check.  This ties the condition on lists of edges
to what the program checks. -/
theorem drawable_singleton_iff (hnodup : g.nodeIds.Nodup) :
    g.Drawable [e] ↔ ∃ s t, g.firstNode? e.source = some s ∧ g.firstNode? e.target = some t ∧
      checkConnection s t g.edges = none := by
  constructor
  · intro he
    obtain ⟨s, hs, t, ht, hsource, htarget, hfit⟩ := he.fitting e (by simp)
    refine ⟨s, t, (firstNode?_eq_some_iff hnodup).2 ⟨hs, hsource⟩,
      (firstNode?_eq_some_iff hnodup).2 ⟨ht, htarget⟩, ?_⟩
    refine checkConnection_eq_none_iff.2 ⟨hfit, ?_, ?_, ?_⟩
    · intro hkind x hx
      -- an edge beside the new one would be the second
      have hone := he.inputs e (by simp) s hs hsource hkind
      rw [length_filter_append_le_one_iff (by simp)] at hone
      rw [hsource]
      simpa using hone x hx
    · intro hkind x hx
      have hone := he.runners e (by simp) t ht htarget hkind
      rw [length_filter_append_le_one_iff (by simp)] at hone
      rw [htarget]
      simpa using hone x hx
    · rw [hsource, htarget]
      exact fun hback => he.noCircle e (by simp) hback.append_right
  · rintro ⟨s, t, hs, ht, hcheck⟩
    obtain ⟨hsmem, hsource⟩ := mem_of_firstNode? hs
    obtain ⟨htmem, htarget⟩ := mem_of_firstNode? ht
    obtain ⟨hfit, hinput, hrunner, hback⟩ := checkConnection_eq_none_iff.1 hcheck
    refine ⟨?_, ?_, ?_, ?_⟩
    all_goals intro x hx
    all_goals obtain rfl := List.mem_singleton.1 hx
    · exact ⟨s, hsmem, t, htmem, hsource, htarget, hfit⟩
    · intro n hn hid hkind
      obtain rfl := eq_of_id_eq hnodup hn hsmem (hid.trans hsource.symm)
      rw [length_filter_append_le_one_iff (by simp), ← hsource]
      intro y hy
      simpa using hinput hkind y hy
    · intro n hn hid hkind
      obtain rfl := eq_of_id_eq hnodup hn htmem (hid.trans htarget.symm)
      rw [length_filter_append_le_one_iff (by simp), ← htarget]
      intro y hy
      simpa using hrunner hkind y hy
    · -- a way back over the new edge itself would have to reach its source first
      rw [← hsource, ← htarget, Edge.leads_append_singleton, ← hsource, ← htarget]
      rintro (hold | ⟨hold, -⟩)
      · exact hback hold
      · exact hback hold

/-! ### Bringing runners up to date in between -/

theorem Closed.drawn (hclosed : g.Closed)
    (hes : ∀ e ∈ es, e.source ∈ g.nodeIds ∧ e.target ∈ g.nodeIds) : (g.drawn es).Closed := by
  intro e he
  rcases List.mem_append.1 he with he | he
  · exact hclosed e he
  · exact hes e he

/-- With more edges a message arrives at more nodes. -/
theorem Feeds.of_subset (hnodes : h.nodes = g.nodes) (hsub : ∀ e ∈ g.edges, e ∈ h.edges)
    {a b : NodeId} (hab : g.Feeds a b) : h.Feeds a b := by
  obtain ⟨c, hac, hcb⟩ := hab
  refine ⟨c, Relation.ReflTransGen.mono (fun x y hxy => ⟨hxy.1.mono hsub, ?_⟩) _ _ hac,
    hcb.mono hsub⟩
  obtain ⟨n, hn, hkind⟩ := hxy.2
  refine ⟨n, ?_, hkind⟩
  rw [node?, hnodes]
  exact hn

/-- More edges can only make an input heard by more runners. -/
theorem mem_heard_of_subset (hclosed : g.Closed) (hclosed' : h.Closed) (hnodes : h.nodes = g.nodes)
    (hsub : ∀ e ∈ g.edges, e ∈ h.edges) {id r : NodeId} (hid : id ∈ g.nodeIds)
    (hr : r ∈ g.heard id) : r ∈ h.heard id := by
  obtain ⟨hfeeds, n, hn, hkind⟩ := (mem_heard_iff hclosed hid).1 hr
  have hid' : id ∈ h.nodeIds := by
    rw [nodeIds, hnodes]
    exact hid
  refine (mem_heard_iff hclosed' hid').2 ⟨hfeeds.of_subset hnodes hsub, n, ?_, hkind⟩
  rw [node?, hnodes]
  exact hn

theorem mem_nodeIds_of_mem_inputMessages {p : NodeId × String} (hp : p ∈ g.inputMessages) :
    p.1 ∈ g.nodeIds := by
  obtain ⟨n, hn, hid, -⟩ := exists_of_mem_inputMessages hp
  exact hid ▸ id_mem_nodeIds hn

/-- Where the same messages are heard, the last one is the same. -/
theorem lastMessage?_congr {messages : List (NodeId × String)} {r : NodeId}
    (hsame : ∀ p ∈ messages, r ∈ g.heard p.1 ↔ r ∈ h.heard p.1) :
    g.lastMessage? messages r = h.lastMessage? messages r := by
  rw [lastMessage?, lastMessage?]
  congr 2
  exact List.filter_congr fun p hp => decide_eq_decide.2 (hsame p hp)

/-- What runners start with does not depend on the order of the edges. -/
theorem nodes_refreshed_eq_of_mem_iff (hclosed : g.Closed) (hclosed' : h.Closed)
    (hnodup : g.nodeIds.Nodup) (hnodes : h.nodes = g.nodes)
    (hedges : ∀ e, e ∈ g.edges ↔ e ∈ h.edges) : h.refreshed.nodes = g.refreshed.nodes := by
  have hids : h.nodeIds = g.nodeIds := by rw [nodeIds, nodeIds, hnodes]
  have hmessages : h.inputMessages = g.inputMessages := by rw [inputMessages, inputMessages, hnodes]
  have hnodup' : h.nodeIds.Nodup := hids ▸ hnodup
  rw [refreshed_eq hclosed hnodup, refreshed_eq hclosed' hnodup', hmessages, hnodes]
  refine List.map_congr_left fun n _ => ?_
  congr 1
  refine lastMessage?_congr fun p hp => ?_
  have hid := mem_nodeIds_of_mem_inputMessages hp
  constructor
  · exact mem_heard_of_subset hclosed' hclosed hnodes.symm (fun e => (hedges e).2) (hids ▸ hid)
  · exact mem_heard_of_subset hclosed hclosed' hnodes (fun e => (hedges e).1) hid

/-- A message that is replaced anyway may be set or not. -/
theorem updated_updated {n : Node} {o o' : Option String} (h : o.isSome → o'.isSome) :
    updated (updated n o) o' = updated n o' := by
  cases o with
  | none => rfl
  | some m =>
    obtain ⟨m', rfl⟩ := Option.isSome_iff_exists.1 (h rfl)
    simp [updated]

theorem lastMessage?_isSome_iff {messages : List (NodeId × String)} {r : NodeId} :
    (g.lastMessage? messages r).isSome ↔ ∃ p ∈ messages, r ∈ g.heard p.1 := by
  simp [lastMessage?]

theorem message?_updated (n : Node) (o : Option String) :
    (updated n o).payload.message? = n.payload.message? := by
  cases o with
  | none => rfl
  | some m => exact Payload.message?_withInput _ _

/-- **Bringing runners up to date before edges are drawn is in vain.**  A runner that hears an input
still hears it with more edges, so what it was given before is set anew. -/
theorem refreshed_drawn_refreshed (hclosed : g.Closed) (hnodup : g.nodeIds.Nodup)
    (hes : ∀ e ∈ es, e.source ∈ g.nodeIds ∧ e.target ∈ g.nodeIds) :
    (g.refreshed.drawn es).refreshed = (g.drawn es).refreshed := by
  have hshape := sameShape_refreshed hclosed hnodup
  have hclosed' := hclosed.drawn hes
  have hshape' : SameShape (g.drawn es) (g.refreshed.drawn es) := by
    refine ⟨hshape.shape, ?_⟩
    rw [edges_drawn, edges_drawn, hshape.edges]
  have hnodup' : (g.refreshed.drawn es).nodeIds.Nodup := hshape'.nodeIds_eq ▸ hnodup
  have hmessages : (g.refreshed.drawn es).inputMessages = (g.drawn es).inputMessages := by
    rw [inputMessages_eq hnodup', inputMessages_eq (g := g.drawn es) hnodup, nodes_drawn,
      nodes_drawn, refreshed_eq hclosed hnodup, List.filterMap_map]
    refine List.filterMap_congr fun n _ => ?_
    rw [Function.comp_apply, message?_updated, updated_id]
  have hlast : ∀ r, (g.refreshed.drawn es).lastMessage? (g.refreshed.drawn es).inputMessages r =
      (g.drawn es).lastMessage? (g.drawn es).inputMessages r := by
    intro r
    rw [hmessages]
    refine lastMessage?_congr fun p _ => ?_
    rw [hshape'.heard_eq]
  -- what was heard before is heard still
  have hstill : ∀ n ∈ g.nodes, (g.lastMessage? g.inputMessages n.id).isSome →
      ((g.drawn es).lastMessage? (g.drawn es).inputMessages n.id).isSome := by
    intro n _ hsome
    obtain ⟨p, hp, hheard⟩ := lastMessage?_isSome_iff.1 hsome
    refine lastMessage?_isSome_iff.2 ⟨p, hp, ?_⟩
    exact mem_heard_of_subset hclosed hclosed' rfl (fun e he => List.mem_append_left _ he)
      (mem_nodeIds_of_mem_inputMessages hp) hheard
  have hnodes : (g.refreshed.drawn es).refreshed.nodes = (g.drawn es).refreshed.nodes := by
    rw [refreshed_eq (hshape'.closed hclosed') hnodup', refreshed_eq hclosed' hnodup]
    simp only [hlast, nodes_drawn]
    rw [refreshed_eq hclosed hnodup, List.map_map]
    refine List.map_congr_left fun n hn => ?_
    rw [Function.comp_apply, updated_id]
    exact updated_updated (hstill n hn)
  have hedges : (g.refreshed.drawn es).refreshed.edges = (g.drawn es).refreshed.edges := by
    rw [(sameShape_refreshed (hshape'.closed hclosed') hnodup').edges,
      (sameShape_refreshed hclosed' hnodup).edges, hshape'.edges]
  exact congrArg₂ Graph.mk hnodes hedges

end Graph

/-! ### Proposals -/

/-- The operation that proposes an edge, with its id. -/
def Edge.proposal (e : Edge) : Command :=
  .proposeEdge e.source e.target (some e.id)

namespace Store

variable {s : Store} {e : Edge} {es fs : List Edge}

/-- Proposed one after the other, all edges are drawn. -/
def Accepts : Store → List Edge → Prop
  | _, [] => True
  | s, e :: es =>
    (s.step e.proposal).result = .ok (.verdict none) ∧ Accepts (s.step e.proposal).store es

@[simp] theorem graph_withGraph (s : Store) (g : Graph) : (s.withGraph g).graph = g := rfl

@[simp] theorem withGraph_withGraph (s : Store) (g h : Graph) :
    (s.withGraph g).withGraph h = s.withGraph h := rfl

/-- A proposal that is accepted draws the edge under its id, and takes no token. -/
theorem step_proposal_of_drawable (hnodup : s.graph.nodeIds.Nodup) (hclosed : s.graph.Closed)
    (hid : e.id ≠ "") (he : s.graph.Drawable [e]) :
    s.step e.proposal = ⟨s.withGraph (s.graph.drawn [e]).refreshed, .ok (.verdict none)⟩ := by
  obtain ⟨a, b, ha, hb, hcheck⟩ := (Graph.drawable_singleton_iff hnodup).1 he
  have hresync := Graph.resync_eq_refreshed (hclosed.drawn he.ends) hnodup
  have hpropose : s.proposeEdge e.source e.target (some e.id) =
      ⟨s.withGraph (s.graph.drawn [e]).refreshed, .ok none⟩ := by
    simp only [proposeEdge, node_eq_ok_iff.2 ha, node_eq_ok_iff.2 hb, hcheck, edgeIdOr, if_neg hid]
    exact resyncThen_of_eq_ok (s := s.withGraph (s.graph.drawn [e])) hresync none
  rw [Edge.proposal, step, hpropose]
  rfl

/-- An edge that is drawn when it is proposed can be drawn. -/
theorem drawable_of_step_proposal (hnodup : s.graph.nodeIds.Nodup)
    (haccepted : (s.step e.proposal).result = .ok (.verdict none)) : s.graph.Drawable [e] := by
  refine (Graph.drawable_singleton_iff hnodup).2 ?_
  -- the reply of the step is the verdict on the proposal
  have hverdict : (s.proposeEdge e.source e.target (some e.id)).result = .ok none := by
    rw [Edge.proposal, step, Outcome.map] at haccepted
    cases hresult : (s.proposeEdge e.source e.target (some e.id)).result with
    | error f =>
      rw [hresult] at haccepted
      exact absurd haccepted (by simp [Except.map])
    | ok r =>
      rw [hresult] at haccepted
      simpa [Except.map] using haccepted
  unfold proposeEdge at hverdict
  split at hverdict
  · exact absurd hverdict (by simp [fail])
  · exact absurd hverdict (by simp [fail])
  · next a b ha hb =>
    split at hverdict
    · exact absurd hverdict (by simp [answer])
    · next hcheck => exact ⟨a, b, node_eq_ok_iff.1 ha, node_eq_ok_iff.1 hb, hcheck⟩

/-- **All proposals are accepted exactly if the edges can be drawn together.** -/
theorem accepts_iff (hnodup : s.graph.nodeIds.Nodup) (hclosed : s.graph.Closed)
    (hids : ∀ e ∈ es, e.id ≠ "") : s.Accepts es ↔ s.graph.Drawable es := by
  induction es generalizing s with
  | nil => exact iff_of_true trivial (Graph.drawable_nil _)
  | cons e es ih =>
    have hid := hids e List.mem_cons_self
    have hids' : ∀ x ∈ es, x.id ≠ "" := fun x hx => hids x (List.mem_cons_of_mem _ hx)
    -- the other edges are proposed to the graph with the first one, brought up to date
    have hrest : s.graph.Drawable [e] →
        ((s.step e.proposal).store.Accepts es ↔ (s.graph.drawn [e]).Drawable es) := by
      intro he
      have hclosed' := hclosed.drawn he.ends
      have hshape := Graph.sameShape_refreshed hclosed' hnodup
      have hstep := step_proposal_of_drawable hnodup hclosed hid he
      have hgraph : (s.step e.proposal).store.graph = (s.graph.drawn [e]).refreshed := by
        rw [hstep, graph_withGraph]
      rw [ih (by rw [hgraph, hshape.nodeIds_eq]; exact hnodup)
        (by rw [hgraph]; exact hshape.closed hclosed') hids', hgraph]
      exact ⟨fun h => h.of_sameShape hshape.symm, fun h => h.of_sameShape hshape⟩
    rw [Accepts, ← List.singleton_append, Graph.drawable_append_iff]
    constructor
    · rintro ⟨hfirst, hothers⟩
      have he := drawable_of_step_proposal hnodup hfirst
      exact ⟨he, (hrest he).1 hothers⟩
    · rintro ⟨he, hothers⟩
      refine ⟨?_, (hrest he).2 hothers⟩
      rw [step_proposal_of_drawable hnodup hclosed hid he]

/-- Edges that can be drawn together are drawn, and the runners are as if they were brought up to
date only once. -/
theorem run_proposals (hnodup : s.graph.nodeIds.Nodup) (hclosed : s.graph.Closed)
    (hids : ∀ e ∈ es, e.id ≠ "") (hes : s.graph.Drawable es) (hne : es ≠ []) :
    s.run (es.map Edge.proposal) = s.withGraph (s.graph.drawn es).refreshed := by
  induction es generalizing s with
  | nil => exact absurd rfl hne
  | cons e es ih =>
    obtain ⟨he, hrest⟩ := Graph.drawable_append_iff.1 (List.singleton_append (x := e) ▸ hes)
    have hstep := step_proposal_of_drawable hnodup hclosed (hids e List.mem_cons_self) he
    rw [List.map_cons, run_cons, hstep]
    cases es with
    | nil => rfl
    | cons f es =>
      -- the runners are up to date after the first edge; bringing them up to date again after the
      -- others makes up for that
      have hclosed' := hclosed.drawn he.ends
      have hshape := Graph.sameShape_refreshed hclosed' hnodup
      have hids' : ∀ x ∈ f :: es, x.id ≠ "" := fun x hx => hids x (List.mem_cons_of_mem _ hx)
      have hnodup' : (s.graph.drawn [e]).refreshed.nodeIds.Nodup := by
        rw [hshape.nodeIds_eq]
        exact hnodup
      have hrun := ih (s := s.withGraph (s.graph.drawn [e]).refreshed) hnodup'
        (hshape.closed hclosed') hids' (hrest.of_sameShape hshape) (List.cons_ne_nil f es)
      rw [hrun, withGraph_withGraph, graph_withGraph,
        Graph.refreshed_drawn_refreshed hclosed' hnodup hrest.ends, Graph.drawn_drawn,
        List.singleton_append]

/-- **The order of proposals does not matter.**  If all edges of a list are drawn when they are
proposed one after the other, then so they are in any other order.  The stores that this ends in
have the same nodes, with all that runners start with, the same name, description and tokens, and
the old edges followed by the new ones in the order in which they were proposed. -/
theorem run_proposals_perm (hnodup : s.graph.nodeIds.Nodup) (hclosed : s.graph.Closed)
    (hids : ∀ e ∈ es, e.id ≠ "") (hperm : es.Perm fs) (haccepts : s.Accepts es) :
    s.Accepts fs ∧ ∃ nodes,
      s.run (es.map Edge.proposal) = s.withGraph ⟨nodes, s.graph.edges ++ es⟩ ∧
      s.run (fs.map Edge.proposal) = s.withGraph ⟨nodes, s.graph.edges ++ fs⟩ := by
  have hids' : ∀ e ∈ fs, e.id ≠ "" := fun e he => hids e (hperm.mem_iff.2 he)
  have hes := (accepts_iff hnodup hclosed hids).1 haccepts
  have hfs := hes.perm hperm
  refine ⟨(accepts_iff hnodup hclosed hids').2 hfs, ?_⟩
  cases hlist : es with
  | nil =>
    obtain rfl : fs = [] := (hlist ▸ hperm).nil_eq.symm
    exact ⟨s.graph.nodes, by simp [withGraph, graph, Document.withGraph],
      by simp [withGraph, graph, Document.withGraph]⟩
  | cons e rest =>
    rw [← hlist]
    have hne : es ≠ [] := by simp [hlist]
    have hne' : fs ≠ [] := fun hnil => hne (List.perm_nil.1 (hnil ▸ hperm))
    have hclosed₁ := hclosed.drawn hes.ends
    have hclosed₂ := hclosed.drawn hfs.ends
    -- what runners start with depends on which edges there are, not on their order
    have hnodes : (s.graph.drawn fs).refreshed.nodes = (s.graph.drawn es).refreshed.nodes := by
      refine Graph.nodes_refreshed_eq_of_mem_iff hclosed₁ hclosed₂ hnodup rfl fun x => ?_
      exact (hperm.append_left s.graph.edges).mem_iff
    refine ⟨(s.graph.drawn es).refreshed.nodes, ?_, ?_⟩
    · rw [run_proposals hnodup hclosed hids hes hne]
      congr 1
      exact congrArg₂ Graph.mk rfl (Graph.sameShape_refreshed hclosed₁ hnodup).edges
    · rw [run_proposals hnodup hclosed hids' hfs hne']
      congr 1
      exact congrArg₂ Graph.mk hnodes (Graph.sameShape_refreshed hclosed₂ hnodup).edges

/-- Two inputs, two agents that already hand off in a circle, an agent and a runner. -/
def crossroads : Store :=
  { document :=
    { graph :=
      { nodes := [⟨"i", none, .input { message := "first" }⟩,
          ⟨"j", none, .input { message := "second" }⟩, ⟨"a", none, .agent {}⟩,
          ⟨"b", none, .agent {}⟩, ⟨"c", none, .agent {}⟩, ⟨"r", none, .runner {}⟩]
        edges := [⟨"e1", "b", "c"⟩, ⟨"e2", "c", "b"⟩] } } }

/-- Edges that lead both inputs to the runner, the second one through the circle. -/
def roads : List Edge :=
  [⟨"e3", "i", "a"⟩, ⟨"e4", "a", "r"⟩, ⟨"e5", "j", "b"⟩, ⟨"e5", "c", "a"⟩]

/-- The edges can be proposed from the last to the first, and the runner hears the second input. -/
theorem run_proposals_perm_crossroads :
    crossroads.graph.nodeIds.Nodup ∧ crossroads.graph.Closed ∧ (∀ e ∈ roads, e.id ≠ "") ∧
      roads.Perm roads.reverse ∧ crossroads.Accepts roads ∧ crossroads.Accepts roads.reverse ∧
      ∃ nodes, crossroads.run (roads.map Edge.proposal) =
          crossroads.withGraph ⟨nodes, crossroads.graph.edges ++ roads⟩ ∧
        crossroads.run (roads.reverse.map Edge.proposal) =
          crossroads.withGraph ⟨nodes, crossroads.graph.edges ++ roads.reverse⟩ ∧
        nodes.filterMap (·.payload.input?) = ["second"] := by
  have hnodup : crossroads.graph.nodeIds.Nodup := by decide
  have hclosed : crossroads.graph.Closed := by unfold Graph.Closed; decide
  have hids : ∀ e ∈ roads, e.id ≠ "" := by decide
  have hperm : roads.Perm roads.reverse := (List.reverse_perm roads).symm
  have haccepts : crossroads.Accepts roads :=
    ⟨eq_ok_of_toOption (by decide +kernel), eq_ok_of_toOption (by decide +kernel),
      eq_ok_of_toOption (by decide +kernel), eq_ok_of_toOption (by decide +kernel), trivial⟩
  obtain ⟨hreverse, nodes, hforth, hback⟩ := run_proposals_perm hnodup hclosed hids hperm haccepts
  refine ⟨hnodup, hclosed, hids, hperm, haccepts, hreverse, nodes, hforth, hback, ?_⟩
  have hstart : (crossroads.run (roads.map Edge.proposal)).graph.startMessages = ["second"] := by
    decide +kernel
  rw [hforth] at hstart
  exact hstart

end Store
end AgentFlow

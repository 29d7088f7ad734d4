import AgentFlow.Proofs.Wiring
import Mathlib.Data.List.Lex

/-!
# The least order of agents

Agents are defined in the order of the nodes, except that an agent waits for those it hands off to.
Taking the first agent that need not wait, again and again, gives the least of all orders in which
nobody is defined before those they hand off to, where orders are compared agent by agent, by the
places of the agents among the nodes.  Some agents are left in the end exactly if agents hand off to
each other in a circle, and these follow as they stand.

## Main definitions

* `Wiring.leftover`: the entries that are left once no entry can be taken any more.
* `Wiring.TargetsFirst`, `Graph.HandoffsFirst`: orders in which targets come first.
* `Program.stranded`: the agents that are left.
* `Graph.places`: an order of agents as a list of places among the nodes.

## Main results

* `Wiring.exists_arrange_eq_append`: what is left stands at the end, and the rest is in order.
* `Wiring.leftover_eq_nil_of_targetsFirst`: nothing is left if there is an order at all.
* `Wiring.TargetsFirst.forall_not`: what waits in a circle is in no order.
* `Wiring.eq_or_lex_arrange`: no order is less.
* `Graph.agentOrder_least`: **agents are defined in the least order in which handoffs come first.**
-/

namespace AgentFlow
namespace Wiring

open Relation

variable {α : Type} {targets : NodeId → List NodeId} {done : List NodeId}
  {pending order : List (NodeId × α)} {p q : NodeId × α}

/-! ### Orders -/

/-- Every entry comes after its targets, those excepted that are done. -/
def TargetsFirst (targets : NodeId → List NodeId) : List NodeId → List (NodeId × α) → Prop
  | _, [] => True
  | done, p :: order => (∀ t ∈ targets p.1, t ∈ done) ∧ TargetsFirst targets (p.1 :: done) order

@[simp] theorem targetsFirst_nil : TargetsFirst targets done ([] : List (NodeId × α)) := trivial

@[simp] theorem targetsFirst_cons : TargetsFirst targets done (p :: order) ↔
    (∀ t ∈ targets p.1, t ∈ done) ∧ TargetsFirst targets (p.1 :: done) order :=
  Iff.rfl

/-- Targets come first exactly if every entry has its targets before it. -/
theorem targetsFirst_iff : TargetsFirst targets done order ↔
    ∀ before p after, order = before ++ p :: after →
      ∀ t ∈ targets p.1, t ∈ done ∨ t ∈ before.map (·.1) := by
  -- the head joins `done` for the rest of the order, and `before` in a split of it
  induction order generalizing done with
  | nil => simp
  | cons q order ih =>
    rw [targetsFirst_cons, ih]
    constructor
    · rintro ⟨hhead, hrest⟩ before p after hsplit t ht
      cases before with
      | nil =>
        obtain ⟨rfl, -⟩ := List.cons.inj hsplit
        exact Or.inl (hhead t ht)
      | cons b before =>
        obtain ⟨rfl, htail⟩ := List.cons.inj hsplit
        rcases hrest before p after htail t ht with hdone | hbefore
        · rcases List.mem_cons.1 hdone with rfl | hdone
          · exact Or.inr List.mem_cons_self
          · exact Or.inl hdone
        · exact Or.inr (List.mem_cons_of_mem _ hbefore)
    · intro hall
      refine ⟨fun t ht => ?_, fun before p after hsplit t ht => ?_⟩
      · exact (hall [] q order rfl t ht).resolve_right List.not_mem_nil
      · rcases hall (q :: before) p after (by rw [hsplit]; rfl) t ht with hdone | hbefore
        · exact Or.inl (List.mem_cons_of_mem _ hdone)
        · rcases List.mem_cons.1 hbefore with rfl | hbefore
          · exact Or.inl List.mem_cons_self
          · exact Or.inr hbefore

theorem TargetsFirst.mono {more : List NodeId} (h : TargetsFirst targets done order)
    (hsub : ∀ t ∈ done, t ∈ more) : TargetsFirst targets more order := by
  induction order generalizing done more with
  | nil => trivial
  | cons p order ih =>
    refine ⟨fun t ht => hsub t (h.1 t ht), ih h.2 fun t ht => ?_⟩
    rcases List.mem_cons.1 ht with rfl | ht
    · exact List.mem_cons_self
    · exact List.mem_cons_of_mem _ (hsub t ht)

/-- An entry whose targets are done may be taken before all others. -/
theorem TargetsFirst.take_out {before after : List (NodeId × α)}
    (h : TargetsFirst targets done (before ++ q :: after)) (hq : ∀ t ∈ targets q.1, t ∈ done) :
    TargetsFirst targets (q.1 :: done) (before ++ after) := by
  induction before generalizing done with
  | nil => exact h.2
  | cons b before ih =>
    have hrest := ih h.2 fun t ht => List.mem_cons_of_mem _ (hq t ht)
    refine ⟨fun t ht => List.mem_cons_of_mem _ (h.1 t ht), hrest.mono fun t ht => ?_⟩
    simp only [List.mem_cons] at ht ⊢
    tauto

/-- What waits for each other in a circle is in no order: the first of it would have its target
before it. -/
theorem TargetsFirst.forall_not (h : TargetsFirst targets done order) {Waits : NodeId → Prop}
    (hwaits : ∀ x, Waits x → ∃ t ∈ targets x, Waits t) (hdone : ∀ t ∈ done, ¬ Waits t) :
    ∀ p ∈ order, ¬ Waits p.1 := by
  induction order generalizing done with
  | nil => simp
  | cons q order ih =>
    have hq : ¬ Waits q.1 := by
      intro hq
      obtain ⟨t, ht, hwaits⟩ := hwaits q.1 hq
      exact hdone t (h.1 t ht) hwaits
    exact List.forall_mem_cons.2 ⟨hq, ih h.2 (List.forall_mem_cons.2 ⟨hq, hdone⟩)⟩

/-! ### What is left -/

/-- The entries that are left once no entry can be taken any more. -/
def leftover (targets : NodeId → List NodeId) (done : List NodeId) (pending : List (NodeId × α)) :
    List (NodeId × α) :=
  match _h : pending.find? fun p => (targets p.1).all (· ∈ done) with
  | none => pending
  | some p => leftover targets (p.1 :: done) (others pending p.1)
termination_by pending.length
decreasing_by exact length_others_lt (List.mem_of_find?_eq_some _h)

theorem leftover_of_find?_eq_none
    (h : pending.find? (fun p => (targets p.1).all (· ∈ done)) = none) :
    leftover targets done pending = pending := by
  rw [leftover]
  split
  · rfl
  · next p hp => exact absurd (h.symm.trans hp) (by simp)

/-- Taking an entry that can be taken does not change which entries are left in the end. -/
theorem leftover_of_find?_eq_some
    (h : pending.find? (fun p => (targets p.1).all (· ∈ done)) = some p) :
    leftover targets done pending = leftover targets (p.1 :: done) (others pending p.1) := by
  rw [leftover]
  split
  · next hp => exact absurd (h.symm.trans hp) (by simp)
  · next q hq =>
    obtain rfl := Option.some.inj (h.symm.trans hq)
    rfl

theorem ready_iff : ((targets p.1).all (· ∈ done)) = true ↔ ∀ t ∈ targets p.1, t ∈ done := by
  simp

theorem ready_of_find? (h : pending.find? (fun p => (targets p.1).all (· ∈ done)) = some p) :
    ∀ t ∈ targets p.1, t ∈ done := by
  have hready := List.find?_some h
  exact ready_iff.1 hready

/-- What is left stands at the end, and the rest is in order. -/
theorem exists_arrange_eq_append (targets : NodeId → List NodeId) (done : List NodeId)
    (pending : List (NodeId × α)) :
    ∃ taken, arrange targets done pending = taken ++ leftover targets done pending ∧
      TargetsFirst targets done taken := by
  fun_induction arrange targets done pending with
  | case1 done pending hfind => exact ⟨[], (leftover_of_find?_eq_none hfind).symm, trivial⟩
  | case2 done pending p hfind ih =>
    obtain ⟨taken, htaken, hfirst⟩ := ih
    refine ⟨p :: taken, ?_, ready_of_find? hfind, hfirst⟩
    rw [htaken, leftover_of_find?_eq_some hfind, List.cons_append]

/-- What is left keeps its order. -/
theorem leftover_sublist (targets : NodeId → List NodeId) (done : List NodeId)
    (pending : List (NodeId × α)) : (leftover targets done pending).Sublist pending := by
  fun_induction leftover targets done pending with
  | case1 done pending _ => exact .refl _
  | case2 done pending p _ ih => exact ih.trans List.filter_sublist

/-- An order of the pending entries starts with one that can be taken. -/
theorem find?_ne_none_of_targetsFirst (hperm : (p :: order).Perm pending)
    (h : TargetsFirst targets done (p :: order)) :
    (pending.find? fun p => (targets p.1).all (· ∈ done)) ≠ none := by
  intro hnone
  exact List.find?_eq_none.1 hnone p (hperm.mem_iff.1 List.mem_cons_self) (ready_iff.2 h.1)

/-- Nothing is left if there is an order at all.  The first entry of such an order that is still
pending can always be taken. -/
theorem leftover_eq_nil_of_targetsFirst (hnodup : (pending.map (·.1)).Nodup)
    (hperm : order.Perm pending) (h : TargetsFirst targets done order) :
    leftover targets done pending = [] := by
  fun_induction leftover targets done pending generalizing order with
  | case1 done pending hfind =>
    cases order with
    | nil => exact hperm.nil_eq.symm
    | cons p order => exact absurd hfind (find?_ne_none_of_targetsFirst hperm h)
  | case2 done pending q hfind ih =>
    -- wherever the entry stands in the order, it may as well come first
    have hq := List.mem_of_find?_eq_some hfind
    obtain ⟨before, after, rfl⟩ := List.append_of_mem (hperm.mem_iff.2 hq)
    refine ih (nodup_others hnodup q.1) ?_ (h.take_out (ready_of_find? hfind))
    exact ((List.perm_middle.symm.trans hperm).trans (cons_others_perm hnodup hq).symm).cons_inv

/-- Where all targets are pending, something is left exactly if there is a circle. -/
theorem leftover_eq_nil_iff (hnodup : (pending.map (·.1)).Nodup)
    (htargets : ∀ p ∈ pending, ∀ t ∈ targets p.1, t ∈ pending.map (·.1)) :
    leftover targets [] pending = [] ↔
      ∀ a, ¬ TransGen (Awaited targets (pending.map (·.1))) a a := by
  constructor
  · intro hnil a ha
    obtain ⟨taken, harrange, hfirst⟩ := exists_arrange_eq_append targets [] pending
    rw [hnil, List.append_nil] at harrange
    subst harrange
    -- whoever is on the circle awaits someone on it
    have hwaits : ∀ x, TransGen (Awaited targets (pending.map (·.1))) x x →
        ∃ t ∈ targets x, TransGen (Awaited targets (pending.map (·.1))) t t := by
      intro x hx
      obtain ⟨t, hxt, htx⟩ := TransGen.tail'_iff.1 hx
      exact ⟨t, htx.2, TransGen.head' htx hxt⟩
    obtain ⟨t, -, hmem, -⟩ := TransGen.tail'_iff.1 ha
    obtain ⟨p, hp, rfl⟩ := List.mem_map.1 hmem
    exact hfirst.forall_not hwaits (by simp) p ((arrange_perm hnodup).mem_iff.2 hp) ha
  · intro hcircle
    have hperm : (arrange targets [] pending).Perm pending := arrange_perm hnodup
    refine leftover_eq_nil_of_targetsFirst hnodup hperm (targetsFirst_iff.2 ?_)
    intro before p after hsplit
    exact mem_before_arrange hcircle (fun p hp => List.mem_map_of_mem hp)
      (fun p hp t ht => Or.inr (htargets p hp t ht)) hsplit

/-! ### The least order -/

theorem nodup_of_sorted {place : NodeId → Nat}
    (hsorted : pending.Pairwise fun p q => place p.1 < place q.1) : (pending.map (·.1)).Nodup := by
  refine List.pairwise_map.2 (hsorted.imp fun hlt heq => ?_)
  rw [heq] at hlt
  exact absurd hlt (Nat.lt_irrefl _)

/-- Of the entries that can be taken, the one that is taken stands first. -/
theorem eq_or_lt_of_find? {place : NodeId → Nat}
    (hsorted : pending.Pairwise fun p q => place p.1 < place q.1)
    (hfind : pending.find? (fun p => (targets p.1).all (· ∈ done)) = some q)
    (hp : p ∈ pending) (hready : ∀ t ∈ targets p.1, t ∈ done) :
    p = q ∨ place q.1 < place p.1 := by
  obtain ⟨-, before, after, rfl, hbefore⟩ := List.find?_eq_some_iff_append.1 hfind
  rcases List.mem_append.1 hp with hp | hp
  · have hnot := hbefore p hp
    rw [ready_iff.2 hready] at hnot
    exact absurd hnot (by simp)
  · rcases List.mem_cons.1 hp with rfl | hp
    · exact Or.inl rfl
    · have hafter := (List.pairwise_append.1 hsorted).2.1
      exact Or.inr ((List.pairwise_cons.1 hafter).1 p hp)

/-- **No order is less.**  Where entries stand by their places, every other order in which targets
come first has, at the first difference, an entry with a later place. -/
theorem eq_or_lex_arrange (place : NodeId → Nat)
    (hsorted : pending.Pairwise fun p q => place p.1 < place q.1) (hperm : order.Perm pending)
    (h : TargetsFirst targets done order) :
    order = arrange targets done pending ∨
      List.Lex (· < ·) ((arrange targets done pending).map fun p => place p.1)
        (order.map fun p => place p.1) := by
  fun_induction arrange targets done pending generalizing order with
  | case1 done pending hfind =>
    cases order with
    | nil => exact Or.inl hperm.nil_eq
    | cons p order => exact absurd hfind (find?_ne_none_of_targetsFirst hperm h)
  | case2 done pending q hfind ih =>
    have hq := List.mem_of_find?_eq_some hfind
    cases order with
    | nil => exact absurd (hperm.mem_iff.2 hq) List.not_mem_nil
    | cons p order =>
      have hp : p ∈ pending := hperm.mem_iff.1 List.mem_cons_self
      rcases eq_or_lt_of_find? hsorted hfind hp h.1 with rfl | hlt
      · -- both take the same entry, and go on with the others
        have hothers : order.Perm (others pending p.1) :=
          (hperm.trans (cons_others_perm (nodup_of_sorted hsorted) hq).symm).cons_inv
        rcases ih (hsorted.filter _) hothers h.2 with rfl | hlex
        · exact Or.inl rfl
        · exact Or.inr (.cons hlex)
      · exact Or.inr (.rel hlt)

/-- An order in which targets come first stays as it is. -/
theorem arrange_eq_self (hnodup : (pending.map (·.1)).Nodup)
    (h : TargetsFirst targets done pending) : arrange targets done pending = pending := by
  induction pending generalizing done with
  | nil => exact arrange_of_find?_eq_none rfl
  | cons p pending ih =>
    have hfind : (p :: pending).find? (fun p => (targets p.1).all (· ∈ done)) = some p :=
      List.find?_cons_of_pos (ready_iff.2 h.1)
    rw [arrange_of_find?_eq_some hfind, others_cons_self hnodup,
      ih (List.nodup_cons.1 hnodup).2 h.2]

end Wiring

/-! ### Agents -/

namespace Program

variable {g : Graph} {links : List Link}

/-- The agents that are left when every agent still waits for another one. -/
def stranded (g : Graph) (links : List Link) : List (NodeId × AgentData) :=
  Wiring.leftover (Wiring.handoffs links) [] (agentNodes g)

end Program

namespace Graph

open Relation Program

variable {g : Graph} {links : List Link} {order : List (NodeId × AgentData)}
  {x : NodeId × AgentData}

/-- Every agent comes after the agents that it hands off to. -/
def HandoffsFirst (g : Graph) (order : List (NodeId × AgentData)) : Prop :=
  ∀ before x after, order = before ++ x :: after →
    ∀ e ∈ g.handoffEdges, e.source = x.1 → e.target ∈ before.map (·.1)

/-- The places of agents among the nodes. -/
def places (g : Graph) (order : List (NodeId × AgentData)) : List Nat :=
  order.map fun x => g.nodeIds.idxOf x.1

theorem id_mem_agents {n : Node} (hn : n ∈ g.nodes) (hkind : n.kind = .agent) :
    n.id ∈ (agentNodes g).map (·.1) := by
  rw [map_fst_agentNodes]
  exact List.mem_map_of_mem (List.mem_filter.2 ⟨hn, by simpa using hkind⟩)

/-- An agent hands off to the targets of its edges to other agents. -/
theorem mem_handoffs_iff_joins (hlinks : g.links = .ok links) (hnodup : g.nodeIds.Nodup)
    (hx : x ∈ agentNodes g) {t : NodeId} :
    t ∈ Wiring.handoffs links x.1 ↔ Edge.Joins g.handoffEdges x.1 t := by
  obtain ⟨n, hn, hid, hpayload⟩ := selects_agent.mem_iff.1 hx
  have hkind : n.kind = .agent := by
    rw [Node.kind, hpayload]
    rfl
  rw [(collects_handoffs hlinks hnodup).mem_iff]
  simp only [Edge.Joins, handoffEdges, List.mem_filter, decide_eq_true_eq]
  constructor
  · rintro ⟨e, he, hsource, rfl, hne, htarget⟩
    exact ⟨e, ⟨he, hsource ▸ Ne.symm hne, ⟨n, hn, hid.trans hsource.symm, hkind⟩, htarget⟩, hsource,
      rfl⟩
  · rintro ⟨e, ⟨he, hne, -, htarget⟩, hsource, rfl⟩
    exact ⟨e, he, hsource, rfl, hsource ▸ Ne.symm hne, htarget⟩

/-- The rule in terms of the graph, and the one in terms of links that the order is computed from,
are the same for orders of agents. -/
theorem handoffsFirst_iff (hlinks : g.links = .ok links) (hnodup : g.nodeIds.Nodup)
    (horder : ∀ x ∈ order, x ∈ agentNodes g) :
    g.HandoffsFirst order ↔ Wiring.TargetsFirst (Wiring.handoffs links) [] order := by
  rw [Wiring.targetsFirst_iff]
  refine forall₄_congr fun before x after hsplit => ?_
  have hx : x ∈ agentNodes g := horder x (by simp [hsplit])
  simp only [mem_handoffs_iff_joins hlinks hnodup hx, List.not_mem_nil, false_or]
  constructor
  · rintro h t ⟨e, he, hsource, rfl⟩
    exact h e he hsource
  · intro h e he hsource
    exact h e.target ⟨e, he, hsource, rfl⟩

/-- Agents wait for each other in a circle exactly if they hand off to each other in a circle. -/
theorem forall_not_awaited_iff (hlinks : g.links = .ok links) (hnodup : g.nodeIds.Nodup) :
    (∀ a, ¬ TransGen (Wiring.Awaited (Wiring.handoffs links) ((agentNodes g).map (·.1))) a a) ↔
      Edge.Acyclic g.handoffEdges := by
  refine ⟨fun h a ha => h a ?_, not_transGen_awaited hlinks⟩
  refine TransGen.mono (fun y x hyx => ?_) _ _ (transGen_swap.2 ha)
  obtain ⟨e, he, rfl, rfl⟩ := hyx
  have hagent : e.source ∈ (agentNodes g).map (·.1) := by
    rw [handoffEdges, List.mem_filter, decide_eq_true_eq] at he
    obtain ⟨-, -, ⟨n, hn, hid, hkind⟩, -⟩ := he
    exact hid ▸ id_mem_agents hn hkind
  obtain ⟨z, hz, hzid⟩ := List.mem_map.1 hagent
  refine ⟨hagent, ?_⟩
  rw [← hzid, mem_handoffs_iff_joins hlinks hnodup hz, hzid]
  exact ⟨e, he, rfl, rfl⟩

/-- The agents that an agent hands off to are agents of the graph. -/
theorem mem_agents_of_mem_handoffs (hlinks : g.links = .ok links) (hnodup : g.nodeIds.Nodup)
    {id t : NodeId} (ht : t ∈ Wiring.handoffs links id) : t ∈ (agentNodes g).map (·.1) := by
  obtain ⟨-, -, -, -, -, n, hn, hid, hkind⟩ := ((collects_handoffs hlinks hnodup).mem_iff t).1 ht
  exact hid ▸ id_mem_agents hn hkind

/-- Agents stand by their places among the nodes. -/
theorem pairwise_agentNodes (hnodup : g.nodeIds.Nodup) :
    (agentNodes g).Pairwise fun x y => g.nodeIds.idxOf x.1 < g.nodeIds.idxOf y.1 := by
  have hall : g.nodeIds.Pairwise fun a b => g.nodeIds.idxOf a < g.nodeIds.idxOf b := by
    rw [List.pairwise_iff_getElem]
    intro i j hi hj hij
    rwa [hnodup.idxOf_getElem i hi, hnodup.idxOf_getElem j hj]
  have hagents := hall.sublist (selects_agent.sublist g.nodes)
  rw [List.pairwise_map] at hagents
  exact hagents

/-- **Agents are defined in the least order in which handoffs come first.**  In a graph whose ids
are all different and whose edges all have their ends, the order of the agents is an order of all of
them.  Agents are left, and follow as they stand, exactly if agents hand off to each other in a
circle.  Otherwise every agent comes after those it hands off to, and of all such orders this is the
least, by the places of the agents among the nodes.  In particular it is the order of the nodes if
that is such an order. -/
theorem agentOrder_least (hnodup : g.nodeIds.Nodup) (hclosed : g.Closed) :
    ∃ links, g.links = .ok links ∧
      (agentOrder g links).Perm (agentNodes g) ∧
      (∃ taken, agentOrder g links = taken ++ stranded g links) ∧
      (stranded g links).Sublist (agentNodes g) ∧
      (stranded g links ≠ [] ↔ ¬ Edge.Acyclic g.handoffEdges) ∧
      (stranded g links = [] →
        g.HandoffsFirst (agentOrder g links) ∧
        ∀ order, order.Perm (agentNodes g) → g.HandoffsFirst order →
          order = agentOrder g links ∨
            List.Lex (· < ·) (g.places (agentOrder g links)) (g.places order)) ∧
      (g.HandoffsFirst (agentNodes g) → agentOrder g links = agentNodes g) := by
  obtain ⟨links, hlinks⟩ := exists_links hclosed
  have hids : ((agentNodes g).map (·.1)).Nodup := hnodup.sublist (selects_agent.sublist g.nodes)
  have hperm := agentOrder_perm hnodup links
  -- the agents that could be taken one after the other, followed by those that are left
  obtain ⟨taken, htaken, hfirst⟩ :=
    Wiring.exists_arrange_eq_append (Wiring.handoffs links) [] (agentNodes g)
  refine ⟨links, hlinks, hperm, ⟨taken, htaken⟩, Wiring.leftover_sublist _ _ _, ?_, ?_, ?_⟩
  · rw [Ne, not_iff_not, stranded, Wiring.leftover_eq_nil_iff hids,
      forall_not_awaited_iff hlinks hnodup]
    exact fun x _ t ht => mem_agents_of_mem_handoffs hlinks hnodup ht
  · intro hnone
    refine ⟨(handoffsFirst_iff hlinks hnodup fun x hx => hperm.mem_iff.1 hx).2 ?_, ?_⟩
    · rw [stranded] at hnone
      rw [agentOrder, htaken, hnone, List.append_nil]
      exact hfirst
    · intro order horder hhandoffs
      refine Wiring.eq_or_lex_arrange (g.nodeIds.idxOf ·) (pairwise_agentNodes hnodup) horder ?_
      exact (handoffsFirst_iff hlinks hnodup fun x hx => horder.mem_iff.1 hx).1 hhandoffs
  · intro hhandoffs
    exact Wiring.arrange_eq_self hids ((handoffsFirst_iff hlinks hnodup fun _ hx => hx).1 hhandoffs)

/-- Four agents.  The first waits for the last, the third for the first, and the second for nobody
but itself. -/
def queueing : Graph :=
  { nodes := [⟨"a", none, .agent {}⟩, ⟨"b", none, .agent {}⟩, ⟨"r", none, .runner {}⟩,
      ⟨"c", none, .agent {}⟩, ⟨"d", none, .agent {}⟩]
    edges := [⟨"1", "a", "d"⟩, ⟨"2", "c", "a"⟩, ⟨"3", "b", "b"⟩, ⟨"4", "a", "d"⟩, ⟨"5", "c", "r"⟩] }

/-- The last agent is defined before the first, which is defined before the third, and the second
comes before them all. -/
theorem agentOrder_least_queueing :
    queueing.nodeIds.Nodup ∧ queueing.Closed ∧ Edge.Acyclic queueing.handoffEdges ∧
      ∃ links, queueing.links = .ok links ∧
        (agentOrder queueing links).map (·.1) = ["b", "d", "a", "c"] ∧
        queueing.HandoffsFirst (agentOrder queueing links) ∧
        ∀ order, order.Perm (agentNodes queueing) → queueing.HandoffsFirst order →
          order = agentOrder queueing links ∨
            List.Lex (· < ·) (queueing.places (agentOrder queueing links))
              (queueing.places order) := by
  have hnodup : queueing.nodeIds.Nodup := by decide
  have hclosed : queueing.Closed := checkReferences_eq_ok_iff.1 rfl
  obtain ⟨links, hlinks, -, -, -, hstranded, hleast, -⟩ := agentOrder_least hnodup hclosed
  have hids : queueing.links.map (fun ls =>
      ((agentOrder queueing ls).map (·.1), (stranded queueing ls).map (·.1))) =
        .ok (["b", "d", "a", "c"], []) := by
    decide +kernel
  rw [hlinks] at hids
  obtain ⟨horder, hnone⟩ := Prod.mk.inj (Except.ok.inj hids)
  rw [List.map_eq_nil_iff] at hnone
  exact ⟨hnodup, hclosed, by_contra fun hcircle => hstranded.2 hcircle hnone, links, hlinks, horder,
    hleast hnone⟩

end Graph
end AgentFlow

import AgentFlow.Proofs.History

/-!
# Edited messages against the order of inputs

Two rules decide about a runner that hears several inputs.  Bringing all runners up to date gives it
the message of the last input that it hears, in the order of the nodes; editing a message gives it
the message that was edited.  The rules agree unless the runner hears a later input that says
something else, and then the runner shows which operation came last.

## Main definitions

* `Graph.LastHeard`: the last input that a runner hears.
* `Graph.Settled`: bringing the runners up to date changes nothing.
* `Graph.Overruled`: an input that a later input speaks against.
* `Graph.Contested`: a runner that hears different messages.
* `Store.Opposed`: a message is edited and the input is overruled.

## Main results

* `Graph.lastMessage?_eq_some_iff`: the message that a runner is given is that of the last input
  that it hears.
* `Graph.settled_iff`: every runner has the message of the last input that it hears.
* `Graph.settled_received_iff`: what propagating one message does to a settled graph.
* `Store.settled_step_iff`: an operation keeps a settled graph settled unless it is opposed.
* `Store.settled_run_iff`: **all graphs of a history are settled exactly if no edit of a message was
  opposed.**
-/

namespace AgentFlow
namespace Graph

variable {g h : Graph} {r i n : Node} {m : String}

/-! ### The last input that is heard -/

/-- The last input that a runner hears, in the order of the nodes. -/
def LastHeard (g : Graph) (r i : Node) : Prop :=
  ∃ before after, g.nodes = before ++ i :: after ∧ g.Hears r i ∧ ∀ j ∈ after, ¬ g.Hears r j

theorem LastHeard.hears (hi : g.LastHeard r i) : g.Hears r i := by
  obtain ⟨_, _, -, hhears, -⟩ := hi
  exact hhears

theorem Hears.exists_message? (hi : g.Hears r i) : ∃ m, i.payload.message? = some m :=
  Option.isSome_iff_exists.1 (Payload.message?_isSome_iff.2 hi.2.1)

/-- The messages that a runner hears, in the order of the nodes. -/
theorem lastMessage?_eq_getLast? (hnodup : g.nodeIds.Nodup) (id : NodeId) :
    g.lastMessage? g.inputMessages id =
      (g.nodes.filterMap fun n =>
        if id ∈ g.heard n.id then n.payload.message? else none).getLast? := by
  rw [lastMessage?, inputMessages_eq hnodup, ← List.getLast?_map, List.filter_filterMap,
    List.map_filterMap]
  congr 2
  funext n
  by_cases hheard : id ∈ g.heard n.id
  · rw [if_pos hheard]
    cases n.payload.message? with
    | none => rfl
    | some m => simp [hheard]
  · rw [if_neg hheard]
    cases n.payload.message? with
    | none => rfl
    | some m => simp [hheard]

/-- **The message that a runner is given is that of the last input that it hears.** -/
theorem lastMessage?_eq_some_iff (hclosed : g.Closed) (hnodup : g.nodeIds.Nodup) (hr : r ∈ g.nodes)
    (hrunner : r.kind = .runner) :
    g.lastMessage? g.inputMessages r.id = some m ↔
      ∃ i, g.LastHeard r i ∧ i.payload.message? = some m := by
  -- a node has something to say to the runner exactly if the runner hears it
  have hspeaks : ∀ n ∈ g.nodes, ∀ m,
      (if r.id ∈ g.heard n.id then n.payload.message? else none) = some m ↔
        g.Hears r n ∧ n.payload.message? = some m := by
    intro n hn m
    constructor
    · intro hm
      by_cases hheard : r.id ∈ g.heard n.id
      · rw [if_pos hheard] at hm
        have hinput : n.kind = .input :=
          Payload.message?_isSome_iff.1 (Option.isSome_of_mem hm)
        exact ⟨(hears_iff_mem_heard hclosed hnodup hr hrunner hn hinput).2 hheard, hm⟩
      · rw [if_neg hheard] at hm
        exact absurd hm (by simp)
    · rintro ⟨hhears, hm⟩
      rw [if_pos ((hears_iff_mem_heard hclosed hnodup hr hrunner hn hhears.2.1).1 hhears)]
      exact hm
  rw [lastMessage?_eq_getLast? hnodup, List.getLast?_filterMap, List.findSome?_eq_some_iff]
  constructor
  · rintro ⟨after, i, before, hsplit, hi, hnone⟩
    have hnodes : g.nodes = before.reverse ++ i :: after.reverse := by
      rw [← List.reverse_reverse g.nodes, hsplit]
      simp
    have hmem : i ∈ g.nodes := by
      rw [hnodes]
      simp
    obtain ⟨hhears, hm⟩ := (hspeaks i hmem m).1 hi
    refine ⟨i, ⟨before.reverse, after.reverse, hnodes, hhears, ?_⟩, hm⟩
    intro j hj hhears'
    obtain ⟨m', hm'⟩ := hhears'.exists_message?
    have hsome := (hspeaks j hhears'.1 m').2 ⟨hhears', hm'⟩
    rw [hnone j (List.mem_reverse.1 hj)] at hsome
    exact absurd hsome (by simp)
  · rintro ⟨i, ⟨before, after, hnodes, hhears, hlast⟩, hm⟩
    refine ⟨after.reverse, i, before.reverse, ?_, (hspeaks i hhears.1 m).2 ⟨hhears, hm⟩, ?_⟩
    · rw [hnodes]
      simp
    · intro j hj
      rw [List.mem_reverse] at hj
      have hmem : j ∈ g.nodes := by
        rw [hnodes]
        simp [hj]
      by_contra hsome
      obtain ⟨m', hm'⟩ := Option.ne_none_iff_exists'.1 hsome
      exact hlast j hj ((hspeaks j hmem m').1 hm').1

/-! ### Settled graphs -/

/-- Bringing the runners up to date changes nothing. -/
def Settled (g : Graph) : Prop :=
  g.resync = .ok g

/-- The messages that the runners start with. -/
def startMessages (g : Graph) : List String :=
  g.nodes.filterMap (·.payload.input?)

theorem not_settled_of_startMessages
    (hne : g.resync.toOption.map startMessages ≠ some g.startMessages) : ¬ g.Settled := by
  intro hsettled
  rw [hsettled] at hne
  exact hne rfl

theorem refreshed_eq (hclosed : g.Closed) (hnodup : g.nodeIds.Nodup) :
    g.refreshed = { g with
      nodes := g.nodes.map fun n => updated n (g.lastMessage? g.inputMessages n.id) } :=
  Except.ok.inj ((resync_eq_refreshed hclosed hnodup).symm.trans (resync_eq hclosed hnodup))

theorem updated_some_eq_self_iff (hrunner : n.kind = .runner) :
    updated n (some m) = n ↔ n.payload.input? = some m := by
  obtain ⟨id, position, payload⟩ := n
  cases payload with
  | runner d =>
    obtain ⟨heading, input, mode, context⟩ := d
    simp only [updated, Payload.withInput, Payload.input?, Node.mk.injEq, Payload.runner.injEq,
      RunnerData.mk.injEq, true_and, and_true, Option.some.injEq]
    exact eq_comm
  | _ => exact absurd hrunner (by simp [Node.kind, Payload.kind])

/-- A graph is settled exactly if every runner has the message of the last input that it hears. -/
theorem settled_iff (hclosed : g.Closed) (hnodup : g.nodeIds.Nodup) :
    g.Settled ↔ ∀ r ∈ g.nodes, r.kind = .runner → ∀ i, g.LastHeard r i →
      r.payload.input? = i.payload.message? := by
  -- nodes are brought up to date one by one, so none may change
  have hnodes : g.Settled ↔
      ∀ n ∈ g.nodes, updated n (g.lastMessage? g.inputMessages n.id) = n := by
    have hmap := List.map_inj_left (l := g.nodes) (g := id)
      (f := fun n => updated n (g.lastMessage? g.inputMessages n.id))
    rw [List.map_id] at hmap
    rw [Settled, resync_eq hclosed hnodup, Except.ok.injEq]
    refine Iff.trans ?_ hmap
    exact ⟨fun heq => congrArg Graph.nodes heq, fun heq => by rw [heq]⟩
  rw [hnodes]
  constructor
  · intro hsame r hr hrunner i hi
    obtain ⟨m, hm⟩ := hi.hears.exists_message?
    have hlast := (lastMessage?_eq_some_iff hclosed hnodup hr hrunner).2 ⟨i, hi, hm⟩
    have hr' := hsame r hr
    rw [hlast, updated_some_eq_self_iff hrunner] at hr'
    rw [hr', hm]
  · intro hlast n hn
    by_cases hrunner : n.kind = .runner
    · cases hm : g.lastMessage? g.inputMessages n.id with
      | none => rfl
      | some m =>
        obtain ⟨i, hi, hmessage⟩ := (lastMessage?_eq_some_iff hclosed hnodup hn hrunner).1 hm
        rw [updated_some_eq_self_iff hrunner, hlast n hn hrunner i hi, hmessage]
    · exact updated_of_kind_ne hrunner _

/-! ### Changing nodes one by one -/

section Map

variable {f : Node → Node}

theorem hears_map_apply_iff (hf : ∀ n ∈ g.nodes, (f n).id = n.id ∧ (f n).kind = n.kind)
    (hr : r ∈ g.nodes) (hi : i ∈ g.nodes) :
    Hears { g with nodes := g.nodes.map f } (f r) (f i) ↔ g.Hears r i := by
  unfold Hears
  rw [(SameShape.of_map hf).feeds_iff, (hf r hr).1, (hf i hi).1, (hf i hi).2]
  exact and_congr_left fun _ => iff_of_true (List.mem_map_of_mem hi) hi

/-- The last input that is heard stays the last one, since neither the order of nodes nor any path
changes. -/
theorem lastHeard_map_iff (hf : ∀ n ∈ g.nodes, (f n).id = n.id ∧ (f n).kind = n.kind)
    (hr : r ∈ g.nodes) :
    LastHeard { g with nodes := g.nodes.map f } (f r) i ↔ ∃ j, g.LastHeard r j ∧ f j = i := by
  constructor
  · rintro ⟨before, after, hnodes, hhears, hlast⟩
    -- the place of `i` among the new nodes is that of its origin among the old ones
    obtain ⟨before', rest, hsplit, rfl, hrest⟩ := List.map_eq_append_iff.1 hnodes
    obtain ⟨j, after', rfl, rfl, rfl⟩ := List.map_eq_cons_iff.1 hrest
    have hmem : ∀ k ∈ j :: after', k ∈ g.nodes := by
      intro k hk
      rw [hsplit]
      exact List.mem_append_right _ hk
    refine ⟨j, ⟨before', after', hsplit, ?_, ?_⟩, rfl⟩
    · exact (hears_map_apply_iff hf hr (hmem j List.mem_cons_self)).1 hhears
    · intro k hk hhears'
      refine hlast (f k) (List.mem_map_of_mem hk) ?_
      exact (hears_map_apply_iff hf hr (hmem k (List.mem_cons_of_mem _ hk))).2 hhears'
  · rintro ⟨j, ⟨before, after, hnodes, hhears, hlast⟩, rfl⟩
    refine ⟨before.map f, after.map f, ?_, ?_, ?_⟩
    · rw [hnodes, List.map_append, List.map_cons]
    · exact (hears_map_apply_iff hf hr hhears.1).2 hhears
    · intro k' hk' hhears'
      obtain ⟨k, hk, rfl⟩ := List.mem_map.1 hk'
      have hmem : k ∈ g.nodes := by
        rw [hnodes]
        simp [hk]
      exact hlast k hk ((hears_map_apply_iff hf hr hmem).1 hhears')

/-- What has to be shown after nodes were changed one by one. -/
theorem settled_map_iff (hclosed : g.Closed) (hnodup : g.nodeIds.Nodup)
    (hf : ∀ n ∈ g.nodes, (f n).id = n.id ∧ (f n).kind = n.kind) :
    Settled { g with nodes := g.nodes.map f } ↔
      ∀ r ∈ g.nodes, r.kind = .runner → ∀ i, g.LastHeard r i →
        (f r).payload.input? = (f i).payload.message? := by
  have hshape := SameShape.of_map hf
  have hnodup' : nodeIds { g with nodes := g.nodes.map f } |>.Nodup := by
    rw [hshape.nodeIds_eq]
    exact hnodup
  rw [settled_iff (hshape.closed hclosed) hnodup']
  constructor
  · intro hall r hr hrunner i hi
    refine hall (f r) (List.mem_map_of_mem hr) ?_ (f i) ((lastHeard_map_iff hf hr).2 ⟨i, hi, rfl⟩)
    rw [(hf r hr).2, hrunner]
  · intro hall r' hr' hrunner i' hi'
    obtain ⟨r, hr, rfl⟩ := List.mem_map.1 hr'
    obtain ⟨i, hi, rfl⟩ := (lastHeard_map_iff hf hr).1 hi'
    rw [(hf r hr).2] at hrunner
    exact hall r hr hrunner i hi

/-- Changes that leave the messages alone keep a graph settled. -/
theorem Settled.of_map (hg : g.Settled) (hclosed : g.Closed) (hnodup : g.nodeIds.Nodup)
    (hf : ∀ n ∈ g.nodes, (f n).id = n.id ∧ (f n).kind = n.kind)
    (hsame : ∀ n ∈ g.nodes, (f n).payload.message? = n.payload.message? ∧
      (f n).payload.input? = n.payload.input?) :
    Settled { g with nodes := g.nodes.map f } := by
  refine (settled_map_iff hclosed hnodup hf).2 fun r hr hrunner i hi => ?_
  rw [(hsame r hr).2, (hsame i hi.hears.1).1]
  exact (settled_iff hclosed hnodup).1 hg r hr hrunner i hi

end Map

/-- A graph that was brought up to date is settled: doing it again changes nothing. -/
theorem settled_refreshed (hclosed : g.Closed) (hnodup : g.nodeIds.Nodup) :
    g.refreshed.Settled := by
  rw [refreshed_eq hclosed hnodup]
  refine (settled_map_iff hclosed hnodup fun _ _ => ⟨updated_id _ _, updated_kind _ _⟩).2 ?_
  intro r hr hrunner i hi
  obtain ⟨m, hm⟩ := hi.hears.exists_message?
  have hkept : ∀ o, updated i o = i := updated_of_kind_ne (by rw [hi.hears.2.1]; decide)
  rw [hkept, hm, (lastMessage?_eq_some_iff hclosed hnodup hr hrunner).2 ⟨i, hi, hm⟩]
  exact Payload.input?_withInput hrunner m

/-- A new node is heard by no one and hears no one. -/
theorem Settled.append_node (hg : g.Settled) (hclosed : g.Closed) (hnodup : g.nodeIds.Nodup)
    (hnew : n.id ∉ g.nodeIds) : Settled { g with nodes := g.nodes ++ [n] } := by
  refine (settled_iff hclosed.append_node (nodup_append_node hnodup hnew)).2 ?_
  rintro r hr hrunner i ⟨before, after, hnodes, ⟨-, hinput, hfeeds⟩, hlast⟩
  rw [feeds_append_node_iff hclosed hnodup hnew] at hfeeds
  obtain ⟨himem, hrmem⟩ := hclosed.mem_of_feeds hfeeds
  have hr' : r ∈ g.nodes := by
    rcases mem_append_node.1 hr with hr | rfl
    · exact hr
    · exact absurd hrmem hnew
  -- the new node comes last and is not the input, so the split is one of the old nodes
  rcases List.eq_nil_or_concat after with rfl | ⟨after', k, rfl⟩
  · obtain ⟨-, hlast⟩ := List.append_inj' hnodes rfl
    obtain ⟨rfl, -⟩ := List.cons.inj hlast
    exact absurd himem hnew
  · rw [List.concat_eq_append, ← List.cons_append, ← List.append_assoc] at hnodes
    obtain ⟨hnodes, -⟩ := List.append_inj' hnodes rfl
    have hi : i ∈ g.nodes := by
      rw [hnodes]
      simp
    refine (settled_iff hclosed hnodup).1 hg r hr' hrunner i ⟨before, after', hnodes,
      ⟨hi, hinput, hfeeds⟩, ?_⟩
    rintro j hj ⟨hjmem, hjinput, hjfeeds⟩
    refine hlast j (by simp [hj]) ⟨List.mem_append_left _ hjmem, hjinput, ?_⟩
    exact (feeds_append_node_iff hclosed hnodup hnew).2 hjfeeds

/-! ### One message -/

/-- The input is overruled: a runner that hears it hears a last input that says something else. -/
def Overruled (g : Graph) (id : NodeId) : Prop :=
  ∃ i r j, i.id = id ∧ r ∈ g.nodes ∧ r.kind = .runner ∧ g.Hears r i ∧ g.LastHeard r j ∧
    j.payload.message? ≠ i.payload.message?

/-- Propagating a message keeps a settled graph settled exactly if the input is not overruled. -/
theorem settled_received_iff (hg : g.Settled) (hclosed : g.Closed) (hnodup : g.nodeIds.Nodup)
    (hn : n ∈ g.nodes) (hkind : n.kind = .input) (m : String) :
    Settled { g with nodes := g.nodes.map (received n.id m (g.heard n.id)) } ↔
      ¬ Overruled { g with nodes := g.nodes.map (received n.id m (g.heard n.id)) } n.id := by
  set f := received n.id m (g.heard n.id)
  have hf : ∀ k ∈ g.nodes, (f k).id = k.id ∧ (f k).kind = k.kind :=
    fun _ _ => ⟨received_id, received_kind⟩
  have hsaid : (f n).payload.message? = some m := message?_received_self hkind m _
  rw [settled_map_iff hclosed hnodup hf]
  constructor
  · rintro hall ⟨i', r', j', hid, hr', hrunner, hhears, hj', hne⟩
    obtain ⟨r, hr, rfl⟩ := List.mem_map.1 hr'
    obtain ⟨j, hj, rfl⟩ := (lastHeard_map_iff hf hr).1 hj'
    obtain ⟨i, hi, rfl⟩ := List.mem_map.1 hhears.1
    rw [(hf i hi).1] at hid
    obtain rfl := eq_of_id_eq hnodup hi hn hid
    rw [(hf r hr).2] at hrunner
    rw [hears_map_apply_iff hf hr hi] at hhears
    apply hne
    rw [← hall r hr hrunner j hj, hsaid]
    exact input?_received hclosed hnodup hr hrunner hhears m
  · intro hnot r hr hrunner j hj
    by_cases hhears : g.Hears r n
    · -- the runner has the message now, and the last input that it hears must say the same
      have htold : (f r).payload.input? = some m :=
        input?_received hclosed hnodup hr hrunner hhears m
      rw [htold, ← hsaid]
      by_contra hne
      refine hnot ⟨f n, f r, f j, (hf n hn).1, List.mem_map_of_mem hr, ?_, ?_, ?_, Ne.symm hne⟩
      · rw [(hf r hr).2, hrunner]
      · exact (hears_map_apply_iff hf hr hn).2 hhears
      · exact (lastHeard_map_iff hf hr).2 ⟨j, hj, rfl⟩
    · -- neither the runner nor the inputs that it hears have changed
      have hkept : f r = r := received_of_not_hears hclosed hnodup hr hrunner hn hkind hhears m
      have hne : j.id ≠ n.id := by
        intro heq
        obtain rfl := eq_of_id_eq hnodup hj.hears.1 hn heq
        exact hhears hj.hears
      have hsame : (f j).payload.message? = j.payload.message? := message?_received_of_ne hne m _
      rw [hkept, hsame]
      exact (settled_iff hclosed hnodup).1 hg r hr hrunner j hj

/-! ### What bringing runners up to date can change -/

/-- The runner hears inputs that say different things. -/
def Contested (g : Graph) (r : Node) : Prop :=
  ∃ i j, g.Hears r i ∧ g.Hears r j ∧ i.payload.message? ≠ j.payload.message?

/-- Where every runner has the message of some input that it hears, only those change that hear
different messages. -/
theorem UpToDate.forall₂_refreshed (hup : g.UpToDate) (hclosed : g.Closed)
    (hnodup : g.nodeIds.Nodup) :
    List.Forall₂ (fun n n' => n' = n ∨
      n.kind = .runner ∧ g.Contested n ∧ ∃ m, n' = { n with payload := n.payload.withInput m })
      g.nodes g.refreshed.nodes := by
  rw [refreshed_eq hclosed hnodup, List.forall₂_map_right_iff, List.forall₂_same]
  intro r hr
  by_cases hrunner : r.kind = .runner
  · cases hm : g.lastMessage? g.inputMessages r.id with
    | none => exact Or.inl rfl
    | some m =>
      obtain ⟨j, hj, hmessage⟩ := (lastMessage?_eq_some_iff hclosed hnodup hr hrunner).1 hm
      obtain ⟨i, hi, hinput⟩ := hup r hr hrunner ⟨j, hj.hears⟩
      by_cases hsame : i.payload.message? = j.payload.message?
      · left
        rw [updated_some_eq_self_iff hrunner, hinput, hsame, hmessage]
      · right
        exact ⟨hrunner, ⟨i, j, hi, hj.hears, hsame⟩, m, rfl⟩
  · exact Or.inl (updated_of_kind_ne hrunner _)

/-- Every change but the edit of a message keeps a graph settled. -/
theorem Change.settled {c : Command} (hchange : Change c g h) (hc : c.edited? = none)
    (hg : g.Current) (hsettled : g.Settled)
    (hload : ∀ d, c = .load d → d.graph.nodeIds.Nodup) : h.Settled := by
  -- a change that ends with an update is settled by it; the others leave alone what runners hear
  cases hchange with
  | keep => exact hsettled
  | load d hc hclosed => exact settled_refreshed hclosed (hload d hc)
  | append n hnew => exact hsettled.append_node hg.closed hg.nodup hnew
  | remove id => exact settled_refreshed hg.closed.without (nodup_without hg.nodup)
  | edit n p hn hkind hmessage hinput =>
    refine hsettled.of_map hg.closed hg.nodup (sameShape_edited hg.nodup hn hkind) fun m hm => ?_
    rcases edited_eq hg.nodup hn p hm with heq | ⟨rfl, heq⟩
    · rw [heq]
      exact ⟨rfl, rfl⟩
    · rw [heq]
      exact ⟨hmessage, hinput⟩
  | tell n m _ hedited _ _ _ =>
    rw [hc] at hedited
    exact absurd hedited (by simp)
  | draw s t e hs ht _ =>
    obtain ⟨hsmem, hsource⟩ := mem_of_firstNode? hs
    obtain ⟨htmem, htarget⟩ := mem_of_firstNode? ht
    have hclosed := hg.closed.append_edge (hsource ▸ id_mem_nodeIds hsmem)
      (htarget ▸ id_mem_nodeIds htmem)
    exact settled_refreshed hclosed hg.nodup
  | erase p => exact settled_refreshed (fun e he => hg.closed e (List.mem_filter.1 he).1) hg.nodup

end Graph

/-! ### Histories -/

namespace Store

variable {s : Store} {c : Command} {commands : List Command} {id : NodeId}

/-- A message is edited, and then the input is overruled. -/
def Opposed (s : Store) (c : Command) : Prop :=
  (∃ reply, (s.step c).result = .ok reply) ∧
    ∃ id, c.edited? = some id ∧ (s.step c).store.graph.Overruled id

/-- The operation fails and changes nothing, or it propagates a message from the node. -/
def Tells (s : Store) (id : NodeId) {α : Type} (o : Outcome α) : Prop :=
  ((∃ e, o.result = .error e) ∧ o.store.graph = s.graph) ∨
    (∃ reply, o.result = .ok reply) ∧ ∃ n m, s.graph.firstNode? id = some n ∧ n.kind = .input ∧
      s.graph.propagate id m = .ok o.store.graph

theorem tells_fail {α : Type} (id : NodeId) (e : Failure) : s.Tells id (s.fail (α := α) e) :=
  Or.inl ⟨⟨e, rfl⟩, rfl⟩

theorem tells_setInputMessage (id : NodeId) (message : Json) :
    s.Tells id (s.setInputMessage id message) := by
  unfold setInputMessage
  split
  · exact tells_fail id _
  · next n hn =>
    split
    · exact tells_fail id _
    · next hkind =>
      split
      · next m =>
        split
        · next h hpropagate =>
          exact Or.inr ⟨⟨(), rfl⟩, n, m, node_eq_ok_iff.1 hn, not_not.1 hkind, hpropagate⟩
        · exact tells_fail id _
      · exact tells_fail id _

/-- The node is found again after a message was propagated from it. -/
theorem exists_node_of_propagate (hclosed : s.graph.Closed) {n : Node} {m : String} {t : Store}
    (hn : s.graph.firstNode? id = some n) (hkind : n.kind = .input)
    (hpropagate : s.graph.propagate id m = .ok t.graph) : ∃ k, t.node id = .ok k := by
  rw [Graph.propagate_eq hclosed hn hkind m, Except.ok.injEq] at hpropagate
  have hids : id ∈ t.graph.nodeIds := by
    rw [← hpropagate, (Graph.sameShape_received s.graph id m _).nodeIds_eq]
    obtain ⟨hmem, hid⟩ := Graph.mem_of_firstNode? hn
    exact hid ▸ Graph.id_mem_nodeIds hmem
  obtain ⟨k, hk⟩ := Graph.exists_firstNode? hids
  exact ⟨k, node_eq_ok_iff.2 hk⟩

theorem resolve?_message {k : Kind} {f : FieldName} (hf : Payload.resolve? k "message" = some f) :
    k = .input ∧ f = .same "message" := by
  cases k with
  | input => exact ⟨rfl, Option.some.inj (hf.symm.trans (by decide))⟩
  | agent => exact absurd hf (by decide +revert)
  | runner => exact absurd hf (by decide +revert)
  | functionTool => exact absurd hf (by decide +revert)
  | guardrail => exact absurd hf (by decide +revert)

/-- An edit of the field `message` does what setting the message does, where it succeeds at all. -/
theorem tells_setField_message (hclosed : s.graph.Closed) (id : NodeId) (value : Json) :
    s.Tells id (s.setField id "message" value) := by
  unfold setField
  split
  · exact tells_fail id _
  · next n hn =>
    split
    · exact tells_fail id _
    · split
      · exact tells_fail id _
      · next f hf =>
        obtain ⟨hkind, rfl⟩ := resolve?_message hf
        split
        · exact tells_fail id _
        · split
          · exact tells_fail id _
          · next p hp =>
            have hedited : p.kind = .input := (editedPayload_kind hp).trans hkind
            cases p with
            | input d =>
              have hplain : (FieldName.same "message").plain = "message" := rfl
              simp only [hplain, if_true]
              -- the answer is the node, which is still there
              rcases tells_setInputMessage (s := s) id (.text d.message) with
                ⟨⟨e, he⟩, hgraph⟩ | ⟨⟨reply, hreply⟩, k, m, hk, hinput, hpropagate⟩
              · exact Or.inl ⟨⟨e, by rw [he]; rfl⟩, hgraph⟩
              · obtain ⟨k', hk'⟩ := exists_node_of_propagate hclosed hk hinput hpropagate
                exact Or.inr ⟨⟨k', by rw [hreply]; exact hk'⟩, k, m, hk, hinput, hpropagate⟩
            | _ => exact absurd hedited (by simp [Payload.kind])

theorem Tells.map {α β : Type} {o : Outcome α} (h : s.Tells id o) (f : α → β) :
    s.Tells id (o.map f) := by
  rcases h with ⟨⟨e, he⟩, hgraph⟩ | ⟨⟨reply, hreply⟩, hpropagate⟩
  · exact Or.inl ⟨⟨e, by rw [Outcome.map, he]; rfl⟩, hgraph⟩
  · exact Or.inr ⟨⟨f reply, by rw [Outcome.map, hreply]; rfl⟩, hpropagate⟩

/-- Both operations that edit a message tell it in the same way. -/
theorem tells_step (hclosed : s.graph.Closed) (hc : c.edited? = some id) :
    s.Tells id (s.step c) := by
  cases c with
  | setInputMessage id' message =>
    obtain rfl := Option.some.inj hc
    exact (tells_setInputMessage id' message).map _
  | setField id' field value =>
    rw [Command.edited?] at hc
    split at hc
    · next hfield =>
      obtain rfl := Option.some.inj hc
      subst hfield
      exact (tells_setField_message hclosed id' value).map _
    · simp at hc
  | _ => simp [Command.edited?] at hc

/-- An operation keeps a settled graph settled unless it is opposed: it sets a message, and some
runner that hears it hears a last input that says something else. -/
theorem settled_step_iff (hg : s.graph.Current) (hsettled : s.graph.Settled)
    (hload : ∀ d, c = .load d → d.graph.nodeIds.Nodup) :
    (s.step c).store.graph.Settled ↔ ¬ s.Opposed c := by
  cases hc : c.edited? with
  | none =>
    refine iff_of_true ((s.step_change c).settled hc hg hsettled hload) ?_
    rintro ⟨-, id, hid, -⟩
    rw [hc] at hid
    exact absurd hid (by simp)
  | some id =>
    have hopposed : s.Opposed c ↔
        (∃ reply, (s.step c).result = .ok reply) ∧ (s.step c).store.graph.Overruled id := by
      simp [Opposed, hc]
    rw [hopposed]
    rcases tells_step hg.closed hc with ⟨⟨e, he⟩, hgraph⟩ | ⟨hreply, n, m, hn, hkind, hpropagate⟩
    · -- the operation failed, and the graph is as it was
      rw [hgraph, he]
      exact iff_of_true hsettled (by simp)
    · obtain ⟨hmem, rfl⟩ := Graph.mem_of_firstNode? hn
      rw [Graph.propagate_eq hg.closed hn hkind m, Except.ok.injEq] at hpropagate
      rw [← hpropagate, Graph.settled_received_iff hsettled hg.closed hg.nodup hmem hkind m]
      simp [hreply]

theorem current_run (settings : Settings)
    (hload : ∀ d, Command.load d ∈ commands → d.graph.nodeIds.Nodup) :
    (run { document := settings.newDocument } commands).graph.Current := by
  refine run_induction (fun c hc g h hg hchange => ?_) current_nil
  exact hchange.current hg fun d hd => hload d (hd ▸ hc)

theorem settled_nil : Graph.Settled { nodes := [], edges := [] } := rfl

/-- **All graphs of a history are settled exactly if no edit of a message was opposed.**  Whatever
was edited, bringing the runners up to date succeeds in the end, and changes nothing but the start
messages of runners that hear different messages. -/
theorem settled_run_iff (settings : Settings)
    (hload : ∀ d, Command.load d ∈ commands → d.graph.nodeIds.Nodup) :
    let s : Store := { document := settings.newDocument }
    ((∀ before, before <+: commands → (s.run before).graph.Settled) ↔
        ∀ before c, before ++ [c] <+: commands → ¬ (s.run before).Opposed c) ∧
      ∃ h, (s.run commands).graph.resync = .ok h ∧ h.edges = (s.run commands).graph.edges ∧
        List.Forall₂ (fun n n' => n' = n ∨
          n.kind = .runner ∧ (s.run commands).graph.Contested n ∧
            ∃ m, n' = { n with payload := n.payload.withInput m })
          (s.run commands).graph.nodes h.nodes := by
  intro s
  have hcurrent : ∀ before, before <+: commands → (s.run before).graph.Current := by
    intro before hbefore
    exact current_run settings fun d hd => hload d (hbefore.subset hd)
  constructor
  · -- step by step: until the first opposed edit all graphs are settled, and that edit unsettles
    -- its own
    refine forall_prefix_run_iff (P := fun t => t.graph.Settled) settled_nil ?_
    intro before c hbefore hsettled
    refine settled_step_iff (hcurrent before ((List.prefix_append _ _).trans hbefore)) hsettled ?_
    rintro d rfl
    exact hload d (hbefore.subset (by simp))
  · have hg := hcurrent commands (List.prefix_refl _)
    refine ⟨_, Graph.resync_eq_refreshed hg.closed hg.nodup, ?_, ?_⟩
    · exact (Graph.sameShape_refreshed hg.closed hg.nodup).edges
    · exact hg.upToDate.forall₂_refreshed hg.closed hg.nodup

/-- A document in which two inputs are heard by one runner, and a tool that is not used. -/
def rivalDocument : Document :=
  { graph :=
    { nodes := [⟨"i", none, .input {}⟩, ⟨"j", none, .input { message := "later" }⟩,
        ⟨"a", none, .agent {}⟩, ⟨"r", none, .runner {}⟩, ⟨"t", none, .functionTool {}⟩]
      edges := [⟨"e1", "i", "a"⟩, ⟨"e2", "j", "a"⟩, ⟨"e3", "a", "r"⟩] } }

/-- A history in which the earlier of two inputs is edited. -/
def rivalHistory : List Command :=
  [.load rivalDocument, .setInputMessage "i" (.text "earlier")]

theorem nodup_of_load_mem_rivalHistory (d : Document) (hd : Command.load d ∈ rivalHistory) :
    d.graph.nodeIds.Nodup := by
  obtain rfl : d = rivalDocument := by simpa [rivalHistory] using hd
  decide

theorem not_settled_rivals :
    ¬ (run { document := Settings.newDocument ⟨"INFO", [], "Chat", true⟩ }
      rivalHistory).graph.Settled :=
  Graph.not_settled_of_startMessages (by decide +kernel)

/-- In the history of two rivals some edit is opposed. -/
theorem settled_run_iff_rivalHistory :
    let settings : Settings := ⟨"INFO", [], "Chat", true⟩
    let s : Store := { document := settings.newDocument }
    (∀ d, Command.load d ∈ rivalHistory → d.graph.nodeIds.Nodup) ∧
      (∃ before c, before ++ [c] <+: rivalHistory ∧ (s.run before).Opposed c) ∧
      ∃ h, (s.run rivalHistory).graph.resync = .ok h := by
  intro settings s
  have hload := nodup_of_load_mem_rivalHistory
  obtain ⟨hiff, h, hresync, -⟩ := settled_run_iff settings hload
  refine ⟨hload, ?_, h, hresync⟩
  by_contra hnone
  refine not_settled_rivals (hiff.2 ?_ rivalHistory (List.prefix_refl _))
  intro before c hbefore hopposed
  exact hnone ⟨before, c, hbefore, hopposed⟩

/-- The start message of a runner can depend on the order of edits: the last edit is undone by an
edge that has nothing to do with it, and by saving and loading. -/
theorem not_settled_run_rivalHistory :
    let settings : Settings := ⟨"INFO", [], "Chat", true⟩
    let s : Store := { document := settings.newDocument }
    (∀ d, Command.load d ∈ rivalHistory → d.graph.nodeIds.Nodup) ∧
      ¬ (s.run rivalHistory).graph.Settled ∧
      (s.run rivalHistory).graph.startMessages = ["earlier"] ∧
      (s.run (rivalHistory ++ [.proposeEdge "t" "a" none])).graph.startMessages = ["later"] ∧
      (s.run (rivalHistory ++ [.load (s.run rivalHistory).document])).graph.startMessages =
        ["later"] := by
  intro settings s
  exact ⟨nodup_of_load_mem_rivalHistory, not_settled_rivals, by decide +kernel, by decide +kernel,
    by decide +kernel⟩

end Store
end AgentFlow

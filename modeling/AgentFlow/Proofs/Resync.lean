import AgentFlow.Proofs.Downstream
import AgentFlow.Propagation.Resync

/-!
# Bringing runners up to date

What propagating one message does to a graph, and what propagating all of them does.  Neither
changes the shape of a graph, so the paths of messages stay the same throughout.

## Main definitions

* `Graph.heard`: the runners downstream of a node.
* `Graph.Sends`: a message can be sent from a node.
* `Graph.lastMessage?`: the message of the last input that a runner hears.

## Main results

* `Graph.propagate_eq_ok_iff`, `Graph.foldlM_propagate_eq_ok_iff`: propagating messages changes
  nodes one by one.
* `Graph.inputMessages_eq`: where no id is repeated, the messages are those of the inputs in order.
* `Graph.resync_eq`: **every runner gets the message of the last input that it hears, and nothing
  else changes.**
-/

namespace AgentFlow

/-! ### Nodes that hear a message -/

namespace Payload

/-- The start message of a runner. -/
def input? : Payload → Option String
  | .runner d => some d.input
  | _ => none

theorem withMessage_of_message? {p : Payload} {m : String} (h : p.message? = some m) :
    p.withMessage m = p := by
  cases p with
  | input d =>
    obtain rfl : d.message = m := by simpa [message?] using h
    rfl
  | _ => simp [message?] at h

theorem withInput_of_kind_ne {p : Payload} (h : p.kind ≠ .runner) (m : String) :
    p.withInput m = p := by
  cases p <;> simp_all [kind, withInput]

@[simp] theorem withInput_withInput (p : Payload) (m m' : String) :
    (p.withInput m).withInput m' = p.withInput m' := by
  cases p <;> rfl

@[simp] theorem message?_withInput (p : Payload) (m : String) :
    (p.withInput m).message? = p.message? := by
  cases p <;> rfl

theorem input?_withInput {p : Payload} (h : p.kind = .runner) (m : String) :
    (p.withInput m).input? = some m := by
  cases p <;> simp_all [kind, withInput, input?]

theorem message?_withMessage {p : Payload} (h : p.kind = .input) (m : String) :
    (p.withMessage m).message? = some m := by
  cases p <;> simp_all [kind, withMessage, message?]

theorem message?_isSome_iff {p : Payload} : p.message?.isSome = true ↔ p.kind = .input := by
  cases p <;> simp [message?, kind]

end Payload

namespace Graph

variable {g h : Graph} {id : NodeId} {n : Node} {m : String} {rs : List NodeId}

@[simp] theorem received_id : (received id m rs n).id = n.id := by
  unfold received
  split
  · rfl
  · split <;> rfl

@[simp] theorem received_kind : (received id m rs n).kind = n.kind := by
  unfold received
  split
  · exact Payload.kind_withMessage _ _
  · split
    · exact Payload.kind_withInput _ _
    · rfl

theorem sameShape_received (g : Graph) (id : NodeId) (m : String) (rs : List NodeId) :
    SameShape g { g with nodes := g.nodes.map (received id m rs) } :=
  .of_map fun _ _ => ⟨received_id, received_kind⟩

/-! ### One message -/

/-- The runners downstream of a node; none where the search fails. -/
def heard (g : Graph) (id : NodeId) : List NodeId :=
  match g.downstream id with
  | .ok rs => rs
  | .error _ => []

theorem downstream_eq_heard (hclosed : g.Closed) (hid : id ∈ g.nodeIds) :
    g.downstream id = .ok (g.heard id) := by
  obtain ⟨rs, hrs, -⟩ := exists_downstream hclosed hid
  rw [heard, hrs]

theorem mem_heard_iff (hclosed : g.Closed) (hid : id ∈ g.nodeIds) {r : NodeId} :
    r ∈ g.heard id ↔ g.Feeds id r ∧ g.HasKind r .runner := by
  obtain ⟨rs, hrs, -, hmem⟩ := exists_downstream hclosed hid
  rw [heard, hrs]
  exact hmem r

/-- A message can be sent from the node: the first node with the id is an input, and the search for
the runners downstream succeeds. -/
def Sends (g : Graph) (id : NodeId) : Prop :=
  g.firstKind? id = some .input ∧ ∃ rs, g.downstream id = .ok rs

theorem Sends.downstream_eq (hsends : g.Sends id) : g.downstream id = .ok (g.heard id) := by
  obtain ⟨-, rs, hrs⟩ := hsends
  rw [heard, hrs]

theorem sends_of_closed (hclosed : g.Closed) (hkind : g.firstKind? id = some .input) :
    g.Sends id := by
  obtain ⟨n, hn, -⟩ := Option.map_eq_some_iff.1 hkind
  obtain ⟨hmem, rfl⟩ := mem_of_firstNode? hn
  exact ⟨hkind, _, downstream_eq_heard hclosed (id_mem_nodeIds hmem)⟩

/-- **Propagating a message changes nodes one by one.**  This is about every graph: what is needed
is that the message can be sent. -/
theorem propagate_eq_ok_iff :
    g.propagate id m = .ok h ↔
      g.Sends id ∧ h = { g with nodes := g.nodes.map (received id m (g.heard id)) } := by
  unfold propagate requireNode Sends firstKind? heard
  cases hn : g.firstNode? id with
  | none => simp [bind, Except.bind, Except.mapError]
  | some n =>
    by_cases hkind : n.kind = .input
    · cases hrs : g.downstream id with
      | error x => simp [bind, Except.bind, Except.mapError, hkind]
      | ok rs =>
        simp [bind, Except.bind, Except.mapError, pure, Except.pure, hkind, eq_comm]
    · simp [bind, Except.bind, Except.mapError, throw, throwThe, MonadExceptOf.throw, hkind]

theorem propagate_eq (hclosed : g.Closed) (hn : g.firstNode? id = some n) (hkind : n.kind = .input)
    (m : String) :
    g.propagate id m = .ok { g with nodes := g.nodes.map (received id m (g.heard id)) } := by
  have hfirst : g.firstKind? id = some .input := by rw [firstKind?, hn, Option.map_some, hkind]
  exact propagate_eq_ok_iff.2 ⟨sends_of_closed hclosed hfirst, rfl⟩

/-! ### The messages of a graph -/

theorem putMessage_of_not_mem {messages : List (NodeId × String)}
    (h : id ∉ messages.map (·.1)) : putMessage messages id m = messages ++ [(id, m)] := by
  induction messages with
  | nil => rfl
  | cons p messages ih =>
    obtain ⟨k, old⟩ := p
    rw [List.map_cons, List.mem_cons, not_or] at h
    rw [putMessage, if_neg (Ne.symm h.1), ih h.2, List.cons_append]

/-- The message of a node is noted, if it has one. -/
def noteMessage (messages : List (NodeId × String)) (n : Node) : List (NodeId × String) :=
  n.payload.message?.elim messages (putMessage messages n.id)

theorem inputMessages_eq_foldl (g : Graph) : g.inputMessages = g.nodes.foldl noteMessage [] := by
  unfold inputMessages
  congr 1
  funext messages n
  rw [noteMessage]
  cases n.payload.message? <;> rfl

/-- Where no id is repeated, the messages are those of the inputs in order. -/
theorem inputMessages_eq (hnodup : g.nodeIds.Nodup) :
    g.inputMessages = g.nodes.filterMap fun n => n.payload.message?.map fun m => (n.id, m) := by
  -- reading from some node on, with messages under other ids found before
  have hfrom : ∀ (nodes : List Node) (found : List (NodeId × String)),
      (found.map (·.1) ++ nodes.map (·.id)).Nodup →
      nodes.foldl noteMessage found =
        found ++ nodes.filterMap fun n => n.payload.message?.map fun m => (n.id, m) := by
    intro nodes
    induction nodes with
    | nil => simp
    | cons n nodes ih =>
      intro found hfound
      rw [List.foldl_cons, noteMessage]
      cases hm : n.payload.message? with
      | none =>
        rw [Option.elim_none, ih found ?_, List.filterMap_cons_none (by simp [hm])]
        exact hfound.sublist (by simp)
      | some m =>
        have hnew : n.id ∉ found.map (·.1) := by
          intro hmem
          exact (List.disjoint_of_nodup_append hfound) hmem (by simp)
        rw [Option.elim_some, putMessage_of_not_mem hnew, ih _ ?_,
          List.filterMap_cons_some (by simp [hm]; rfl), List.append_assoc, List.singleton_append]
        simpa using hfound
  rw [inputMessages_eq_foldl]
  exact hfrom g.nodes [] (by simpa [nodeIds] using hnodup)

/-- What is in the table after a message is noted is that message or was there before. -/
theorem mem_putMessage {messages : List (NodeId × String)} {p : NodeId × String}
    (hp : p ∈ putMessage messages id m) : p = (id, m) ∨ p ∈ messages := by
  induction messages with
  | nil => exact Or.inl (List.mem_singleton.1 hp)
  | cons q messages ih =>
    obtain ⟨k, old⟩ := q
    rw [putMessage] at hp
    split at hp
    · next hk =>
      rw [List.mem_cons, hk] at hp
      exact hp.imp_right (List.mem_cons_of_mem _)
    · rcases List.mem_cons.1 hp with rfl | hp
      · exact Or.inr List.mem_cons_self
      · exact (ih hp).imp_right (List.mem_cons_of_mem _)

/-- Also where ids are repeated, an entry among the messages is that of an input with its id. -/
theorem exists_of_mem_inputMessages (hmem : (id, m) ∈ g.inputMessages) :
    ∃ n ∈ g.nodes, n.id = id ∧ n.payload.message? = some m := by
  rw [inputMessages_eq_foldl] at hmem
  -- the last node either writes the entry or leaves it as it was
  generalize g.nodes = nodes at hmem ⊢
  induction nodes using List.reverseRecOn with
  | nil => simp at hmem
  | append_singleton nodes n ih =>
    have hbefore : (id, m) ∈ nodes.foldl noteMessage [] →
        ∃ k ∈ nodes ++ [n], k.id = id ∧ k.payload.message? = some m := by
      intro hmem
      obtain ⟨k, hk, hkid, hkm⟩ := ih hmem
      exact ⟨k, List.mem_append_left _ hk, hkid, hkm⟩
    rw [List.foldl_append, List.foldl_cons, List.foldl_nil, noteMessage] at hmem
    cases hm : n.payload.message? with
    | none =>
      rw [hm, Option.elim_none] at hmem
      exact hbefore hmem
    | some m' =>
      rw [hm, Option.elim_some] at hmem
      rcases mem_putMessage hmem with heq | hmem
      · obtain ⟨rfl, rfl⟩ := Prod.mk.inj heq
        exact ⟨n, by simp, rfl, hm⟩
      · exact hbefore hmem

/-- An entry among the messages is an input with its message. -/
theorem mem_inputMessages_iff (hnodup : g.nodeIds.Nodup) :
    (id, m) ∈ g.inputMessages ↔ ∃ n ∈ g.nodes, n.id = id ∧ n.payload.message? = some m := by
  refine ⟨exists_of_mem_inputMessages, ?_⟩
  rintro ⟨n, hn, rfl, hm⟩
  rw [inputMessages_eq hnodup, List.mem_filterMap]
  exact ⟨n, hn, by rw [hm, Option.map_some]⟩

/-! ### All messages -/

/-- A node after several messages were propagated, one after the other. -/
def receivedAll (g : Graph) (messages : List (NodeId × String)) (n : Node) : Node :=
  messages.foldl (fun n p => received p.1 p.2 (g.heard p.1) n) n

theorem receivedAll_append (g : Graph) (before after : List (NodeId × String)) (n : Node) :
    g.receivedAll (before ++ after) n = g.receivedAll after (g.receivedAll before n) :=
  List.foldl_append

@[simp] theorem receivedAll_id (g : Graph) (messages : List (NodeId × String)) (n : Node) :
    (g.receivedAll messages n).id = n.id := by
  induction messages generalizing n with
  | nil => rfl
  | cons p messages ih => exact (ih _).trans received_id

@[simp] theorem receivedAll_kind (g : Graph) (messages : List (NodeId × String)) (n : Node) :
    (g.receivedAll messages n).kind = n.kind := by
  induction messages generalizing n with
  | nil => rfl
  | cons p messages ih => exact (ih _).trans received_kind

theorem sameShape_receivedAll (g : Graph) (messages : List (NodeId × String)) :
    SameShape g { g with nodes := g.nodes.map (g.receivedAll messages) } :=
  .of_map fun n _ => ⟨g.receivedAll_id messages n, g.receivedAll_kind messages n⟩

theorem SameShape.heard_eq (hgh : SameShape g h) (id : NodeId) : h.heard id = g.heard id := by
  rw [heard, heard, hgh.downstream_eq]

theorem SameShape.sends_iff (hgh : SameShape g h) : h.Sends id ↔ g.Sends id := by
  rw [Sends, Sends, hgh.firstKind?_eq, hgh.downstream_eq]

/-- **Propagating several messages changes nodes one by one.**  Each message has to be one that can
be sent; which ones these are does not change on the way. -/
theorem foldlM_propagate_eq_ok_iff {k : Graph} {messages : List (NodeId × String)}
    (hgh : SameShape g h) :
    messages.foldlM (fun k p => k.propagate p.1 p.2) h = .ok k ↔
      (∀ p ∈ messages, g.Sends p.1) ∧
        k = { h with nodes := h.nodes.map (g.receivedAll messages) } := by
  -- `h` changes from message to message but keeps the shape of `g`, which decides who hears what
  induction messages generalizing h with
  | nil =>
    have hsame : h.nodes.map (g.receivedAll []) = h.nodes := List.map_id _
    rw [hsame, List.foldlM_nil]
    simp [pure, Except.pure, eq_comm]
  | cons p messages ih =>
    have hnext := hgh.trans (sameShape_received h p.1 p.2 (h.heard p.1))
    have hnodes : (h.nodes.map (received p.1 p.2 (h.heard p.1))).map (g.receivedAll messages) =
        h.nodes.map (g.receivedAll (p :: messages)) := by
      rw [hgh.heard_eq, List.map_map]
      rfl
    rw [List.foldlM_cons, bind_eq_ok_iff, List.forall_mem_cons]
    constructor
    · rintro ⟨l, hl, hrest⟩
      obtain ⟨hsends, rfl⟩ := propagate_eq_ok_iff.1 hl
      obtain ⟨hall, rfl⟩ := (ih hnext).1 hrest
      refine ⟨⟨hgh.sends_iff.1 hsends, hall⟩, ?_⟩
      rw [hnodes]
    · rintro ⟨⟨hsends, hall⟩, rfl⟩
      refine ⟨_, propagate_eq_ok_iff.2 ⟨hgh.sends_iff.2 hsends, rfl⟩, (ih hnext).2 ⟨hall, ?_⟩⟩
      rw [hnodes]

/-- When bringing the runners up to date succeeds, and what it does to the nodes. -/
theorem resync_eq_ok_iff :
    g.resync = .ok h ↔ (∀ p ∈ g.inputMessages, g.Sends p.1) ∧
      h = { g with nodes := g.nodes.map (g.receivedAll g.inputMessages) } :=
  foldlM_propagate_eq_ok_iff (.refl g)

/-- The message of the last input that a runner hears. -/
def lastMessage? (g : Graph) (messages : List (NodeId × String)) (r : NodeId) : Option String :=
  ((messages.filter fun p => r ∈ g.heard p.1).getLast?).map (·.2)

/-- The node with the message it heard last, if it heard any. -/
def updated (n : Node) : Option String → Node
  | some m => { n with payload := n.payload.withInput m }
  | none => n

@[simp] theorem updated_id (n : Node) (o : Option String) : (updated n o).id = n.id := by
  cases o <;> rfl

@[simp] theorem updated_kind (n : Node) (o : Option String) : (updated n o).kind = n.kind := by
  cases o with
  | none => rfl
  | some m => exact Payload.kind_withInput m n.payload

theorem updated_of_kind_ne (hkind : n.kind ≠ .runner) (o : Option String) : updated n o = n := by
  cases o with
  | none => rfl
  | some m => rw [updated, Payload.withInput_of_kind_ne hkind]

/-- Of several messages a node keeps the last one that it hears. -/
theorem receivedAll_eq (hclosed : g.Closed) (hnodup : g.nodeIds.Nodup) (hn : n ∈ g.nodes)
    {messages : List (NodeId × String)} (hsub : ∀ p ∈ messages, p ∈ g.inputMessages) :
    g.receivedAll messages n = updated n (g.lastMessage? messages n.id) := by
  induction messages using List.reverseRecOn with
  | nil => rfl
  | append_singleton messages p ih =>
    obtain ⟨i, hi, hid, hmessage⟩ := (mem_inputMessages_iff hnodup).1 (hsub p (by simp))
    have hids : p.1 ∈ g.nodeIds := hid ▸ id_mem_nodeIds hi
    have hlast : g.receivedAll (messages ++ [p]) n =
        received p.1 p.2 (g.heard p.1) (updated n (g.lastMessage? messages n.id)) := by
      rw [← ih fun q hq => hsub q (by simp [hq])]
      exact g.receivedAll_append messages [p] n
    have hkind : i.kind = .input :=
      Payload.message?_isSome_iff.1 (Option.isSome_of_mem hmessage)
    rw [hlast, received, updated_id, lastMessage?, lastMessage?, List.filter_append]
    by_cases hhears : n.id ∈ g.heard p.1
    · -- a runner is not the input whose message it hears
      have hrunner : n.kind = .runner :=
        (hasKind_iff_of_node? ((node?_eq_some_iff hnodup).2 ⟨hn, rfl⟩)).1
          ((mem_heard_iff hclosed hids).1 hhears).2
      have hne : n.id ≠ p.1 := by
        intro heq
        obtain rfl := eq_of_id_eq hnodup hn hi (heq.trans hid.symm)
        rw [hrunner] at hkind
        exact absurd hkind (by decide)
      rw [if_neg hne, if_pos hhears]
      cases hm : ((messages.filter fun q => n.id ∈ g.heard q.1).getLast?).map (·.2) <;>
        simp [updated, hhears]
    · rw [List.filter_cons_of_neg (by simpa using hhears), List.filter_nil, List.append_nil]
      by_cases heq : n.id = p.1
      · -- an input is told its own message
        obtain rfl := eq_of_id_eq hnodup hn hi (heq.trans hid.symm)
        rw [if_pos heq, updated_of_kind_ne (by rw [hkind]; decide),
          Payload.withMessage_of_message? hmessage]
      · rw [if_neg heq, if_neg hhears]

/-- **Every runner gets the message of the last input that it hears, and nothing else changes.** -/
theorem resync_eq (hclosed : g.Closed) (hnodup : g.nodeIds.Nodup) :
    g.resync = .ok { g with
      nodes := g.nodes.map fun n => updated n (g.lastMessage? g.inputMessages n.id) } := by
  refine resync_eq_ok_iff.2 ⟨fun p hp => ?_, ?_⟩
  · obtain ⟨n, hn, hid, hmessage⟩ := (mem_inputMessages_iff hnodup).1 hp
    have hkind : n.kind = .input := Payload.message?_isSome_iff.1 (Option.isSome_of_mem hmessage)
    refine sends_of_closed hclosed ?_
    rw [firstKind?, (firstNode?_eq_some_iff hnodup).2 ⟨hn, hid⟩, Option.map_some, hkind]
  · congr 1
    exact List.map_congr_left fun n hn =>
      (receivedAll_eq hclosed hnodup hn fun _ hp => hp).symm

end Graph
end AgentFlow

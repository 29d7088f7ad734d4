import AgentFlow.Proofs.Loading
import AgentFlow.Proofs.Settled

/-!
# Messages that are sent more than once

A node keeps a message in one of two slots: an input where it has its own message, a runner where it
has what it starts with.  A message overwrites its slot, so of two messages for one slot the later
one stays, and messages for different slots do not meet.  What happens to a whole graph follows node
by node, since no message changes the way of another.

This holds in every graph in which the messages can be sent, also where ids are repeated and where
edges run in circles or end nowhere out of reach.

## Main definitions

* `Slot`, `Graph.slot?`: where a node keeps a message.
* `Graph.Refreshes`: what becomes of a node when the runners are brought up to date.

## Main results

* `Graph.received_received`, `Graph.received_comm`: two messages for one node.
* `Graph.propagate_compose`: **a message replaces an earlier one from the same input, and messages
  from inputs without a common runner can be sent in any order.**
* `Graph.receivedAll_receivedAll`: sending messages twice is sending them once.
* `Graph.inputMessages_receivedAll`: sending all messages does not change what there is to send.
* `Graph.resync_resync`: **bringing runners up to date a second time changes nothing.**
* `Store.resyncThen_refreshes`: **every runner gets the message of the last input that it hears, and
  nothing else changes.**
-/

namespace AgentFlow

/-! ### Slots -/

/-- The parts of a payload that messages are written to. -/
inductive Slot where
  /-- The message of an input. -/
  | message
  /-- What a runner starts with. -/
  | input
  deriving DecidableEq

namespace Payload

/-- The payload with a message in a slot, if it has the slot. -/
def write : Slot → String → Payload → Payload
  | .message => withMessage
  | .input => withInput

variable {s t : Slot} {m m' : String}

/-- A slot keeps the last message. -/
theorem write_write_self (p : Payload) : (p.write s m).write s m' = p.write s m' := by
  cases s <;> cases p <;> rfl

theorem withInput_withMessage (p : Payload) :
    (p.withMessage m).withInput m' = (p.withInput m').withMessage m := by
  cases p <;> rfl

/-- Different slots are written in any order.  A slot is where a message ends up: with the input it
was set at, or with a runner that hears it. -/
theorem write_comm (hne : s ≠ t) (p : Payload) :
    (p.write s m).write t m' = (p.write t m').write s m := by
  cases s with
  | message =>
    cases t with
    | message => exact absurd rfl hne
    | input => exact withInput_withMessage p
  | input =>
    cases t with
    | message => exact (withInput_withMessage p).symm
    | input => exact absurd rfl hne

end Payload

namespace Graph

variable {g h : Graph} {n : Node} {i j id : NodeId} {rs rs' : List NodeId} {m m' : String}

/-- The slot for a message that is sent from one id and heard by some, in a node with another id. -/
def slot? (id : NodeId) (runners : List NodeId) (x : NodeId) : Option Slot :=
  if x = id then some .message else if x ∈ runners then some .input else none

theorem slot?_eq_message_iff {x : NodeId} : slot? id rs x = some .message ↔ x = id := by
  unfold slot?
  split
  · simp_all
  · split <;> simp_all

theorem slot?_eq_input_iff {x : NodeId} : slot? id rs x = some .input ↔ x ≠ id ∧ x ∈ rs := by
  unfold slot?
  split
  · simp_all
  · split <;> simp_all

theorem slot?_eq_none_iff {x : NodeId} : slot? id rs x = none ↔ x ≠ id ∧ x ∉ rs := by
  unfold slot?
  split
  · simp_all
  · split <;> simp_all

theorem received_of_slot?_eq_some {s : Slot} (hs : slot? id rs n.id = some s) :
    received id m rs n = { n with payload := n.payload.write s m } := by
  cases s with
  | message =>
    rw [received, if_pos (slot?_eq_message_iff.1 hs)]
    rfl
  | input =>
    obtain ⟨hne, hmem⟩ := slot?_eq_input_iff.1 hs
    rw [received, if_neg hne, if_pos hmem]
    rfl

theorem received_of_slot?_eq_none (hs : slot? id rs n.id = none) : received id m rs n = n := by
  obtain ⟨hne, hmem⟩ := slot?_eq_none_iff.1 hs
  rw [received, if_neg hne, if_neg hmem]

/-- **Of two messages for one slot the later one stays.** -/
theorem received_received (hslot : slot? i rs n.id = slot? j rs' n.id) :
    received j m' rs' (received i m rs n) = received j m' rs' n := by
  cases hs : slot? i rs n.id with
  | none => rw [received_of_slot?_eq_none hs]
  | some s =>
    rw [hs] at hslot
    have hslot' : slot? j rs' (received i m rs n).id = some s := by rw [received_id, ← hslot]
    rw [received_of_slot?_eq_some hslot', received_of_slot?_eq_some hslot.symm,
      received_of_slot?_eq_some hs, Payload.write_write_self]

/-- **Messages for different slots do not meet.**  If both would be written into one slot of the
node, the later one would win. -/
theorem received_comm (hslot : slot? i rs n.id = slot? j rs' n.id → slot? i rs n.id = none) :
    received j m' rs' (received i m rs n) = received i m rs (received j m' rs' n) := by
  cases hs : slot? i rs n.id with
  | none =>
    have hs' : slot? i rs (received j m' rs' n).id = none := by rw [received_id, hs]
    rw [received_of_slot?_eq_none hs, received_of_slot?_eq_none hs']
  | some s =>
    cases ht : slot? j rs' n.id with
    | none =>
      have ht' : slot? j rs' (received i m rs n).id = none := by rw [received_id, ht]
      rw [received_of_slot?_eq_none ht, received_of_slot?_eq_none ht']
    | some t =>
      -- both messages are written, and into different slots of one payload
      have hne : s ≠ t := by
        rintro rfl
        rw [hs, ht] at hslot
        exact absurd (hslot rfl) (by simp)
      have hs' : slot? i rs (received j m' rs' n).id = some s := by rw [received_id, hs]
      have ht' : slot? j rs' (received i m rs n).id = some t := by rw [received_id, ht]
      rw [received_of_slot?_eq_some ht', received_of_slot?_eq_some hs',
        received_of_slot?_eq_some hs, received_of_slot?_eq_some ht, Payload.write_comm hne]

/-- Different inputs without a common runner do not write to one slot. -/
theorem slot?_eq_none_of_disjoint (hij : i ≠ j) (hdisjoint : rs.Disjoint rs') {x : NodeId}
    (hslot : slot? i rs x = slot? j rs' x) : slot? i rs x = none := by
  cases hs : slot? i rs x with
  | none => rfl
  | some s =>
    rw [hs] at hslot
    cases s with
    | message =>
      have hi := slot?_eq_message_iff.1 hs
      have hj := slot?_eq_message_iff.1 hslot.symm
      exact absurd (hi.symm.trans hj) hij
    | input =>
      have hi := slot?_eq_input_iff.1 hs
      have hj := slot?_eq_input_iff.1 hslot.symm
      exact absurd hj.2 (hdisjoint hi.2)

/-! ### Two messages -/

/-- A message goes the same way in every graph of one shape. -/
theorem SameShape.propagate_eq (hgh : SameShape g h) (hsends : g.Sends id) (m : String) :
    h.propagate id m = .ok { h with nodes := h.nodes.map (received id m (g.heard id)) } := by
  refine propagate_eq_ok_iff.2 ⟨hgh.sends_iff.2 hsends, ?_⟩
  rw [hgh.heard_eq]

/-- A message replaces an earlier one from the same input. -/
theorem exists_propagate_propagate (hi : g.Sends i) (m₁ m₂ : String) :
    ∃ h k, g.propagate i m₁ = .ok h ∧ h.propagate i m₂ = .ok k ∧ g.propagate i m₂ = .ok k := by
  have hshape := sameShape_received g i m₁ (g.heard i)
  refine ⟨_, _, (SameShape.refl g).propagate_eq hi m₁, hshape.propagate_eq hi m₂, ?_⟩
  rw [(SameShape.refl g).propagate_eq hi m₂, List.map_map]
  congr 2
  exact List.map_congr_left fun n _ => (received_received rfl).symm

/-- Messages from inputs without a common runner can be sent in any order. -/
theorem exists_propagate_comm (hi : g.Sends i) (hj : g.Sends j) (hij : i ≠ j)
    (hdisjoint : (g.heard i).Disjoint (g.heard j)) (m₁ m₂ : String) :
    ∃ h h' k, g.propagate i m₁ = .ok h ∧ h.propagate j m₂ = .ok k ∧
      g.propagate j m₂ = .ok h' ∧ h'.propagate i m₁ = .ok k := by
  have hshape := sameShape_received g i m₁ (g.heard i)
  have hshape' := sameShape_received g j m₂ (g.heard j)
  refine ⟨_, _, _, (SameShape.refl g).propagate_eq hi m₁, hshape.propagate_eq hj m₂,
    (SameShape.refl g).propagate_eq hj m₂, ?_⟩
  rw [hshape'.propagate_eq hi m₁, List.map_map, List.map_map]
  congr 2
  exact List.map_congr_left fun n _ =>
    (received_comm (slot?_eq_none_of_disjoint hij hdisjoint)).symm

/-- **A message replaces an earlier one from the same input, and messages from inputs without a
common runner can be sent in any order.**  The graph is closed; ids may be repeated, and an id is
that of an input if the first node with it is one. -/
theorem propagate_compose (hclosed : g.Closed) (hi : g.firstKind? i = some .input)
    (hj : g.firstKind? j = some .input) (m₁ m₂ : String) :
    (∃ h k, g.propagate i m₁ = .ok h ∧ h.propagate i m₂ = .ok k ∧ g.propagate i m₂ = .ok k) ∧
      ∃ rs rs', g.downstream i = .ok rs ∧ g.downstream j = .ok rs' ∧
        (i ≠ j → rs.Disjoint rs' →
          ∃ h h' k, g.propagate i m₁ = .ok h ∧ h.propagate j m₂ = .ok k ∧
            g.propagate j m₂ = .ok h' ∧ h'.propagate i m₁ = .ok k) := by
  have hsends := sends_of_closed hclosed hi
  have hsends' := sends_of_closed hclosed hj
  refine ⟨exists_propagate_propagate hsends m₁ m₂, g.heard i, g.heard j, hsends.downstream_eq,
    hsends'.downstream_eq, fun hij hdisjoint => ?_⟩
  exact exists_propagate_comm hsends hsends' hij hdisjoint m₁ m₂

/-- Two inputs with an agent in common.  The agent is on a circle that leads to no runner.  The id
of the first input is repeated, and the last node with the id of the second is a runner. -/
def commonAgent : Graph :=
  { nodes := [⟨"i", none, .input {}⟩, ⟨"j", none, .input {}⟩, ⟨"i", none, .input {}⟩,
      ⟨"a", none, .agent {}⟩, ⟨"b", none, .agent {}⟩, ⟨"q", none, .runner {}⟩,
      ⟨"r", none, .runner {}⟩, ⟨"j", none, .runner {}⟩]
    edges := [⟨"1", "i", "a"⟩, ⟨"2", "j", "a"⟩, ⟨"3", "a", "b"⟩, ⟨"4", "b", "a"⟩, ⟨"5", "i", "q"⟩,
      ⟨"6", "i", "j"⟩, ⟨"7", "j", "r"⟩, ⟨"8", "j", "r"⟩] }

/-- Both inputs are edited, in either order. -/
theorem propagate_compose_commonAgent :
    commonAgent.Closed ∧ commonAgent.firstKind? "i" = some .input ∧
      commonAgent.firstKind? "j" = some .input ∧ commonAgent.downstream "i" = .ok ["q", "j"] ∧
      commonAgent.downstream "j" = .ok ["r"] ∧
      (∃ h k, commonAgent.propagate "i" "one" = .ok h ∧ h.propagate "i" "two" = .ok k ∧
        commonAgent.propagate "i" "two" = .ok k) ∧
      ∃ h h' k, commonAgent.propagate "i" "one" = .ok h ∧ h.propagate "j" "two" = .ok k ∧
        commonAgent.propagate "j" "two" = .ok h' ∧ h'.propagate "i" "one" = .ok k := by
  have hclosed : commonAgent.Closed := checkReferences_eq_ok_iff.1 rfl
  have hi : commonAgent.downstream "i" = .ok ["q", "j"] := by decide +kernel
  have hj : commonAgent.downstream "j" = .ok ["r"] := by decide +kernel
  obtain ⟨htwice, rs, rs', hrs, hrs', hcomm⟩ :=
    propagate_compose (i := "i") (j := "j") hclosed rfl rfl "one" "two"
  obtain rfl := Except.ok.inj (hi.symm.trans hrs)
  obtain rfl := Except.ok.inj (hj.symm.trans hrs')
  exact ⟨hclosed, rfl, rfl, hi, hj, htwice, hcomm (by decide) (by simp)⟩

/-! ### All messages again -/

/-- Nodes that a message makes equal are made equal by it also after another message. -/
theorem received_congr {x y : Node} (hid : x.id = y.id)
    (hxy : received j m' rs' x = received j m' rs' y) :
    received j m' rs' (received i m rs x) = received j m' rs' (received i m rs y) := by
  by_cases hslot : slot? i rs y.id = slot? j rs' y.id
  · -- the other message is overwritten
    rw [received_received (hid ▸ hslot), received_received hslot, hxy]
  · -- the other message is for another slot
    have hcomm : ∀ z : Node, z.id = y.id →
        received j m' rs' (received i m rs z) = received i m rs (received j m' rs' z) := by
      intro z hz
      refine received_comm fun hsame => absurd ?_ hslot
      rwa [hz] at hsame
    rw [hcomm x hid, hcomm y rfl, hxy]

theorem received_receivedAll_congr {x y : Node} (hid : x.id = y.id)
    (hxy : received j m' rs' x = received j m' rs' y) (messages : List (NodeId × String)) :
    received j m' rs' (g.receivedAll messages x) =
      received j m' rs' (g.receivedAll messages y) := by
  induction messages generalizing x y with
  | nil => exact hxy
  | cons p messages ih =>
    exact ih (by rw [received_id, received_id, hid]) (received_congr hid hxy)

/-- **Sending messages twice is sending them once.**  The last message for a slot wins either time,
and it is the same one. -/
theorem receivedAll_receivedAll (g : Graph) (messages : List (NodeId × String)) (n : Node) :
    g.receivedAll messages (g.receivedAll messages n) = g.receivedAll messages n := by
  induction messages using List.reverseRecOn with
  | nil => rfl
  | append_singleton messages p ih =>
    have hlast : ∀ x, g.receivedAll (messages ++ [p]) x =
        received p.1 p.2 (g.heard p.1) (g.receivedAll messages x) :=
      fun x => g.receivedAll_append messages [p] x
    -- the last message comes again, so it may be left out the first time
    rw [hlast, hlast, received_receivedAll_congr received_id (received_received rfl), ih]

/-! ### The messages that there are to send -/

variable {messages : List (NodeId × String)}

/-- The message of an input is written only by messages that are sent from it, not by those that
pass. -/
theorem message?_receivedAll_of_not_mem (hid : n.id ∉ messages.map (·.1)) :
    (g.receivedAll messages n).payload.message? = n.payload.message? := by
  induction messages generalizing n with
  | nil => rfl
  | cons p messages ih =>
    rw [List.map_cons, List.mem_cons, not_or] at hid
    have hrest : (received p.1 p.2 (g.heard p.1) n).id ∉ messages.map (·.1) := by
      rw [received_id]
      exact hid.2
    exact (ih hrest).trans (message?_received_of_ne hid.1 p.2 _)

/-- An input ends up with the message that is sent from its id. -/
theorem message?_receivedAll (hnodup : (messages.map (·.1)).Nodup) (hkind : n.kind = .input)
    (hmem : (n.id, m) ∈ messages) : (g.receivedAll messages n).payload.message? = some m := by
  obtain ⟨before, after, rfl⟩ := List.append_of_mem hmem
  have hafter : n.id ∉ after.map (·.1) := by
    rw [List.map_append, List.map_cons] at hnodup
    exact (List.nodup_cons.1 hnodup.of_append_right).1
  have hsplit : g.receivedAll (before ++ (n.id, m) :: after) n =
      g.receivedAll after (received n.id m (g.heard n.id) (g.receivedAll before n)) :=
    g.receivedAll_append before ((n.id, m) :: after) n
  have htold := message?_received_self (n := g.receivedAll before n)
    ((g.receivedAll_kind before n).trans hkind) m (g.heard n.id)
  rw [receivedAll_id] at htold
  rw [hsplit, message?_receivedAll_of_not_mem (by simpa using hafter), htold]

theorem SameShape.map_fst_inputMessages_eq (hgh : SameShape g h) :
    h.inputMessages.map (·.1) = g.inputMessages.map (·.1) := by
  rw [map_fst_inputMessages, map_fst_inputMessages, hgh.map_id_nodesOfKind_eq]

theorem nodup_map_fst_inputMessages (g : Graph) : (g.inputMessages.map (·.1)).Nodup := by
  rw [map_fst_inputMessages]
  exact nodup_eraseDups _

theorem exists_mem_inputMessages (hn : n ∈ g.nodes) (hkind : n.kind = .input) :
    ∃ m, (n.id, m) ∈ g.inputMessages := by
  have hid : n.id ∈ g.inputMessages.map (·.1) := by
    rw [map_fst_inputMessages, List.mem_eraseDups]
    exact List.mem_map_of_mem (List.mem_filter.2 ⟨hn, by simpa using hkind⟩)
  obtain ⟨⟨_, m⟩, hp, rfl⟩ := List.mem_map.1 hid
  exact ⟨m, hp⟩

/-- **Sending all messages does not change what there is to send.**  Where an id is repeated, the
last of its messages is noted, and then all inputs with the id have it. -/
theorem inputMessages_receivedAll (g : Graph) :
    inputMessages { g with nodes := g.nodes.map (g.receivedAll g.inputMessages) } =
      g.inputMessages := by
  have hkeys := (sameShape_receivedAll g g.inputMessages).map_fst_inputMessages_eq
  refine eq_of_map_eq_of_subset hkeys (nodup_map_fst_inputMessages g) ?_
  rintro ⟨id, m⟩ hmem
  obtain ⟨n', hn', rfl, hm⟩ := exists_of_mem_inputMessages hmem
  obtain ⟨n, hn, rfl⟩ := List.mem_map.1 hn'
  have hkind : n.kind = .input := by
    rw [← g.receivedAll_kind g.inputMessages n]
    exact Payload.message?_isSome_iff.1 (Option.isSome_of_mem hm)
  obtain ⟨m', hmem'⟩ := exists_mem_inputMessages hn hkind
  have htold := message?_receivedAll (g := g) (nodup_map_fst_inputMessages g) hkind hmem'
  obtain rfl := Option.some.inj (htold.symm.trans hm)
  rw [receivedAll_id]
  exact hmem'

theorem SameShape.receivedAll_eq (hgh : SameShape g h) (messages : List (NodeId × String)) :
    h.receivedAll messages = g.receivedAll messages := by
  funext n
  simp only [receivedAll, hgh.heard_eq]

/-- **Bringing runners up to date a second time changes nothing.**  This is about every graph for
which it succeeds the first time, also where ids are repeated by nodes of any kinds and edges run in
circles, are not allowed, or end nowhere out of reach. -/
theorem resync_resync (hresync : g.resync = .ok h) : h.resync = .ok h := by
  obtain ⟨hsends, rfl⟩ := resync_eq_ok_iff.1 hresync
  have hshape := sameShape_receivedAll g g.inputMessages
  refine resync_eq_ok_iff.2 ⟨fun p hp => ?_, ?_⟩
  · rw [inputMessages_receivedAll] at hp
    exact hshape.sends_iff.2 (hsends p hp)
  · rw [inputMessages_receivedAll, hshape.receivedAll_eq, List.map_map]
    congr 1
    exact List.map_congr_left fun n _ => (g.receivedAll_receivedAll g.inputMessages n).symm

/-- An input and a runner have one id, and two inputs another one.  There are a circle and a loop, a
runner leads to an input, one edge ends nowhere, and another one comes from nowhere. -/
def tangle : Graph :=
  { nodes := [⟨"i", none, .input { message := "one" }⟩, ⟨"x", none, .input { message := "mine" }⟩,
      ⟨"x", none, .runner { input := "old" }⟩, ⟨"a", none, .agent {}⟩, ⟨"b", none, .agent {}⟩,
      ⟨"r", none, .runner {}⟩, ⟨"i", none, .input { message := "two" }⟩,
      ⟨"t", none, .functionTool {}⟩]
    edges := [⟨"1", "i", "a"⟩, ⟨"2", "a", "b"⟩, ⟨"3", "b", "a"⟩, ⟨"4", "b", "r"⟩, ⟨"5", "b", "x"⟩,
      ⟨"6", "x", "x"⟩, ⟨"7", "r", "i"⟩, ⟨"8", "t", "nowhere"⟩, ⟨"9", "nowhere", "r"⟩] }

/-- Both runners of the tangle start with the last message under the repeated id, and keep it. -/
theorem resync_resync_tangle :
    tangle.resync = .ok tangle.refreshed ∧ tangle.startMessages = ["old", ""] ∧
      tangle.refreshed.startMessages = ["two", "two"] ∧
      tangle.refreshed.resync = .ok tangle.refreshed := by
  have hresync : tangle.resync = .ok tangle.refreshed := by decide +kernel
  exact ⟨hresync, by decide +kernel, by decide +kernel, resync_resync hresync⟩

end Graph

/-! ### What runners end up with -/

theorem Payload.exists_of_kind_eq_runner {p : Payload} (hkind : p.kind = .runner) :
    ∃ d, p = .runner d := by
  cases p with
  | runner d => exact ⟨d, rfl⟩
  | _ => simp [Payload.kind] at hkind

theorem Payload.exists_of_message?_eq_some {p : Payload} {m : String} (hm : p.message? = some m) :
    ∃ e, p = .input e ∧ e.message = m := by
  cases p with
  | input e => exact ⟨e, rfl, Option.some.inj hm⟩
  | _ => simp [Payload.message?] at hm

namespace Graph

variable {g : Graph} {n : Node}

/-- What becomes of a node when the runners are brought up to date. -/
inductive Refreshes (g : Graph) : Node → Node → Prop
  /-- A node of another kind stays as it is. -/
  | other {n : Node} (hkind : n.kind ≠ .runner) : Refreshes g n n
  /-- A runner that hears no input stays as it is. -/
  | unheard {n : Node} (hkind : n.kind = .runner) (hnone : ∀ i, ¬ g.Hears n i) : Refreshes g n n
  /-- A runner that hears inputs starts with the message of the last one, and keeps the rest. -/
  | told {n i : Node} {d : RunnerData} {e : InputData} (hn : n.payload = .runner d)
      (hi : i.payload = .input e) (hlast : g.LastHeard n i) :
      Refreshes g n { n with payload := .runner { d with input := e.message } }

/-- Every node is refreshed by what is found in the table of messages: a runner by the last message
that it hears, and any other node by nothing. -/
theorem refreshes_updated (hclosed : g.Closed) (hnodup : g.nodeIds.Nodup) (hn : n ∈ g.nodes) :
    g.Refreshes n (updated n (g.lastMessage? g.inputMessages n.id)) := by
  -- a runner has a last message exactly if it hears an input at all
  by_cases hrunner : n.kind = .runner
  · cases hm : g.lastMessage? g.inputMessages n.id with
    | none =>
      refine .unheard hrunner fun i hi => ?_
      obtain ⟨-, m, -, -, hsome⟩ := exists_lastMessage? hclosed hnodup hn hrunner hi
      exact absurd (hm.symm.trans hsome) (by simp)
    | some m =>
      obtain ⟨i, hlast, hmessage⟩ := (lastMessage?_eq_some_iff hclosed hnodup hn hrunner).1 hm
      obtain ⟨d, hd⟩ := Payload.exists_of_kind_eq_runner hrunner
      obtain ⟨e, he, rfl⟩ := Payload.exists_of_message?_eq_some hmessage
      have htold : updated n (some e.message) =
          { n with payload := .runner { d with input := e.message } } := by
        rw [updated, hd]
        rfl
      rw [htold]
      exact .told hd he hlast
  · rw [updated_of_kind_ne hrunner]
    exact .other hrunner

end Graph

namespace Store

/-- **Bringing the runners of a closed document without repeated ids up to date succeeds.**  Every
runner gets the message of the last input that it hears, in the order of the nodes, and nothing else
changes: not the rest of the nodes and their order, not the edges, and not the name and the
description of the document. -/
theorem resyncThen_refreshes (s : Store) (hnodup : s.graph.nodeIds.Nodup)
    (hclosed : s.graph.Closed) :
    ∃ h, s.graph.resync = .ok h ∧ h.edges = s.graph.edges ∧
      List.Forall₂ s.graph.Refreshes s.graph.nodes h.nodes ∧
      ∀ {α : Type} (a : α), s.resyncThen a =
        ⟨{ s with document := { s.document with graph := h } }, .ok a⟩ := by
  have hresync := Graph.resync_eq hclosed hnodup
  refine ⟨_, hresync, rfl, ?_, resyncThen_of_eq_ok hresync⟩
  rw [List.forall₂_map_right_iff, List.forall₂_same]
  exact fun n hn => Graph.refreshes_updated hclosed hnodup hn

/-- A named document in which a runner hears two inputs through agents on a circle.  Another runner
hears only the first of them, and a third one hears none. -/
def switchboard : Store :=
  { document :=
    { name := "Chat"
      description := "Two callers"
      graph :=
      { nodes := [⟨"r", some ⟨⟨0⟩, ⟨1⟩⟩, .runner { name := "Desk", context := some "night" }⟩,
          ⟨"i", none, .input { message := "first" }⟩, ⟨"a", none, .agent {}⟩,
          ⟨"j", none, .input { message := "last" }⟩, ⟨"b", none, .agent {}⟩,
          ⟨"q", none, .runner { executionMode := .async }⟩, ⟨"s", none, .runner { input := "own" }⟩]
        edges := [⟨"1", "i", "a"⟩, ⟨"2", "a", "b"⟩, ⟨"3", "b", "a"⟩, ⟨"4", "b", "r"⟩,
          ⟨"5", "j", "b"⟩, ⟨"6", "i", "q"⟩] } } }

/-- On the switchboard the first runner gets the last message, and the third one keeps its own. -/
theorem resyncThen_refreshes_switchboard :
    switchboard.graph.nodeIds.Nodup ∧ switchboard.graph.Closed ∧
      ∃ h, switchboard.graph.resync = .ok h ∧ h.edges = switchboard.graph.edges ∧
        List.Forall₂ switchboard.graph.Refreshes switchboard.graph.nodes h.nodes ∧
        switchboard.resyncThen () =
          ⟨{ switchboard with document := { switchboard.document with graph := h } }, .ok ()⟩ ∧
        h.startMessages = ["last", "first", "own"] := by
  have hnodup : switchboard.graph.nodeIds.Nodup := by decide
  have hclosed : switchboard.graph.Closed := Graph.checkReferences_eq_ok_iff.1 rfl
  obtain ⟨h, hresync, hedges, hnodes, hthen⟩ := resyncThen_refreshes switchboard hnodup hclosed
  refine ⟨hnodup, hclosed, h, hresync, hedges, hnodes, hthen (), ?_⟩
  obtain rfl := Except.ok.inj ((Graph.resync_eq_refreshed hclosed hnodup).symm.trans hresync)
  decide +kernel

end Store
end AgentFlow

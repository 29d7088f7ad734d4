import AgentFlow.Proofs.Connection
import AgentFlow.Proofs.Resync

/-!
# Runners that are up to date

A runner that hears an input should start with the message of an input that it hears.  Propagating a
message, or all of them, brings this about; changes that touch neither messages nor paths keep it.

## Main definitions

* `Graph.Hears`: a runner hears an input.
* `Graph.UpToDate`: no runner is left with an old message.

## Main results

* `Graph.upToDate_resync`: after all messages were propagated, every runner is up to date.
* `Graph.UpToDate.received`: propagating one message keeps runners up to date.
* `Graph.UpToDate.of_map`, `Graph.UpToDate.append_node`: changes that touch neither messages nor
  paths.
-/

namespace AgentFlow
namespace Graph

variable {g h : Graph} {n : Node}

/-- The runner hears the input: a message at the input arrives at the runner. -/
def Hears (g : Graph) (r i : Node) : Prop :=
  i ∈ g.nodes ∧ i.kind = .input ∧ g.Feeds i.id r.id

/-- Every runner that hears an input starts with the message of an input that it hears. -/
def UpToDate (g : Graph) : Prop :=
  ∀ r ∈ g.nodes, r.kind = .runner → (∃ i, g.Hears r i) →
    ∃ i, g.Hears r i ∧ r.payload.input? = i.payload.message?

theorem hears_iff_mem_heard (hclosed : g.Closed) (hnodup : g.nodeIds.Nodup) {r i : Node}
    (hr : r ∈ g.nodes) (hrunner : r.kind = .runner) (hi : i ∈ g.nodes) (hinput : i.kind = .input) :
    g.Hears r i ↔ r.id ∈ g.heard i.id := by
  rw [mem_heard_iff hclosed (id_mem_nodeIds hi), hasKind_iff hnodup]
  exact ⟨fun h => ⟨h.2.2, r, hr, rfl, hrunner⟩, fun h => ⟨hi, hinput, h.1⟩⟩

/-! ### Changing nodes one by one -/

section Map

variable {f : Node → Node}

/-- Runners hear the same inputs after nodes were changed one by one. -/
theorem hears_map_iff (hf : ∀ n ∈ g.nodes, (f n).id = n.id ∧ (f n).kind = n.kind) {r i : Node}
    (hr : r ∈ g.nodes) :
    Hears { g with nodes := g.nodes.map f } (f r) i ↔ ∃ j, g.Hears r j ∧ f j = i := by
  have hshape := SameShape.of_map hf
  constructor
  · rintro ⟨hi, hinput, hfeeds⟩
    obtain ⟨j, hj, rfl⟩ := List.mem_map.1 hi
    rw [hshape.feeds_iff, (hf j hj).1, (hf r hr).1] at hfeeds
    exact ⟨j, ⟨hj, (hf j hj).2 ▸ hinput, hfeeds⟩, rfl⟩
  · rintro ⟨j, ⟨hj, hinput, hfeeds⟩, rfl⟩
    refine ⟨List.mem_map_of_mem hj, (hf j hj).2.trans hinput, ?_⟩
    rw [hshape.feeds_iff, (hf j hj).1, (hf r hr).1]
    exact hfeeds

/-- What has to be shown after nodes were changed one by one. -/
theorem upToDate_map_iff (hf : ∀ n ∈ g.nodes, (f n).id = n.id ∧ (f n).kind = n.kind) :
    UpToDate { g with nodes := g.nodes.map f } ↔
      ∀ r ∈ g.nodes, r.kind = .runner → (∃ i, g.Hears r i) →
        ∃ i, g.Hears r i ∧ (f r).payload.input? = (f i).payload.message? := by
  constructor
  · intro h r hr hrunner hhears
    obtain ⟨j, hj⟩ := hhears
    obtain ⟨i, hi, heq⟩ := h (f r) (List.mem_map_of_mem hr) ((hf r hr).2.trans hrunner)
      ⟨f j, (hears_map_iff hf hr).2 ⟨j, hj, rfl⟩⟩
    obtain ⟨k, hk, rfl⟩ := (hears_map_iff hf hr).1 hi
    exact ⟨k, hk, heq⟩
  · intro h r' hr' hrunner hhears
    obtain ⟨r, hr, rfl⟩ := List.mem_map.1 hr'
    obtain ⟨i', hi'⟩ := hhears
    obtain ⟨j, hj, -⟩ := (hears_map_iff hf hr).1 hi'
    obtain ⟨i, hi, heq⟩ := h r hr ((hf r hr).2 ▸ hrunner) ⟨j, hj⟩
    exact ⟨f i, (hears_map_iff hf hr).2 ⟨i, hi, rfl⟩, heq⟩

/-- Changes that leave the messages alone keep runners up to date, as what a runner hears depends on
ids, kinds and edges. -/
theorem UpToDate.of_map (hup : g.UpToDate)
    (hf : ∀ n ∈ g.nodes, (f n).id = n.id ∧ (f n).kind = n.kind)
    (hsame : ∀ n ∈ g.nodes, (f n).payload.message? = n.payload.message? ∧
      (f n).payload.input? = n.payload.input?) :
    UpToDate { g with nodes := g.nodes.map f } := by
  refine (upToDate_map_iff hf).2 fun r hr hrunner hhears => ?_
  obtain ⟨i, hi, heq⟩ := hup r hr hrunner hhears
  refine ⟨i, hi, ?_⟩
  rw [(hsame r hr).2, (hsame i hi.1).1]
  exact heq

end Map

/-! ### Propagating messages -/

theorem message?_received_self (hkind : n.kind = .input) (m : String) (rs : List NodeId) :
    (Graph.received n.id m rs n).payload.message? = some m := by
  rw [Graph.received, if_pos rfl]
  exact Payload.message?_withMessage hkind m

theorem message?_received_of_ne {i : Node} {id : NodeId} (hne : i.id ≠ id) (m : String)
    (rs : List NodeId) : (Graph.received id m rs i).payload.message? = i.payload.message? := by
  rw [Graph.received, if_neg hne]
  split
  · exact Payload.message?_withInput _ _
  · rfl

section Received

variable {r : Node}

theorem id_ne_of_runner_of_input (hnodup : g.nodeIds.Nodup) (hr : r ∈ g.nodes)
    (hrunner : r.kind = .runner) (hn : n ∈ g.nodes) (hkind : n.kind = .input) : r.id ≠ n.id := by
  intro heq
  obtain rfl := eq_of_id_eq hnodup hr hn heq
  rw [hrunner] at hkind
  exact absurd hkind (by decide)

/-- A runner that hears the input starts with the message. -/
theorem input?_received (hclosed : g.Closed) (hnodup : g.nodeIds.Nodup) (hr : r ∈ g.nodes)
    (hrunner : r.kind = .runner) (hhears : g.Hears r n) (m : String) :
    (Graph.received n.id m (g.heard n.id) r).payload.input? = some m := by
  have hne := id_ne_of_runner_of_input hnodup hr hrunner hhears.1 hhears.2.1
  have hmem := (hears_iff_mem_heard hclosed hnodup hr hrunner hhears.1 hhears.2.1).1 hhears
  rw [Graph.received, if_neg hne, if_pos hmem]
  exact Payload.input?_withInput hrunner m

/-- A runner that does not hear the input stays as it is. -/
theorem received_of_not_hears (hclosed : g.Closed) (hnodup : g.nodeIds.Nodup) (hr : r ∈ g.nodes)
    (hrunner : r.kind = .runner) (hn : n ∈ g.nodes) (hkind : n.kind = .input)
    (hnot : ¬ g.Hears r n) (m : String) : Graph.received n.id m (g.heard n.id) r = r := by
  have hne := id_ne_of_runner_of_input hnodup hr hrunner hn hkind
  have hmem : r.id ∉ g.heard n.id := fun hmem =>
    hnot ((hears_iff_mem_heard hclosed hnodup hr hrunner hn hkind).2 hmem)
  rw [Graph.received, if_neg hne, if_neg hmem]

end Received

/-- Propagating one message keeps runners up to date: those that hear the input get its message, and
for the others nothing changes. -/
theorem UpToDate.received (hup : g.UpToDate) (hclosed : g.Closed) (hnodup : g.nodeIds.Nodup)
    (hn : n ∈ g.nodes) (hkind : n.kind = .input) (m : String) :
    UpToDate { g with nodes := g.nodes.map (received n.id m (g.heard n.id)) } := by
  refine (upToDate_map_iff fun _ _ => ⟨received_id, received_kind⟩).2 fun r hr hrunner hhears => ?_
  by_cases hnew : g.Hears r n
  · -- the runner hears the new message
    refine ⟨n, hnew, ?_⟩
    rw [input?_received hclosed hnodup hr hrunner hnew, message?_received_self hkind]
  · -- the runner hears other inputs only, and their messages are as before
    obtain ⟨i, hi, heq⟩ := hup r hr hrunner hhears
    refine ⟨i, hi, ?_⟩
    have hne : i.id ≠ n.id := by
      intro hid
      obtain rfl := eq_of_id_eq hnodup hi.1 hn hid
      exact hnew hi
    rw [received_of_not_hears hclosed hnodup hr hrunner hn hkind hnew, message?_received_of_ne hne]
    exact heq

/-- The runner gets the message of an input that it hears, though not of every one: where there are
several, the last is meant. -/
theorem exists_lastMessage? (hclosed : g.Closed) (hnodup : g.nodeIds.Nodup) {r i : Node}
    (hr : r ∈ g.nodes) (hrunner : r.kind = .runner) (hi : g.Hears r i) :
    ∃ j m, g.Hears r j ∧ j.payload.message? = some m ∧
      g.lastMessage? g.inputMessages r.id = some m := by
  -- the runner hears an input, so there is a last one
  have hsome : (g.inputMessages.filter fun p => r.id ∈ g.heard p.1) ≠ [] := by
    obtain ⟨m, hm⟩ := Option.isSome_iff_exists.1 (Payload.message?_isSome_iff.2 hi.2.1)
    refine List.ne_nil_of_mem (a := (i.id, m)) (List.mem_filter.2 ⟨?_, ?_⟩)
    · exact (mem_inputMessages_iff hnodup).2 ⟨i, hi.1, rfl, hm⟩
    · exact decide_eq_true ((hears_iff_mem_heard hclosed hnodup hr hrunner hi.1 hi.2.1).1 hi)
  obtain ⟨p, hp⟩ := Option.ne_none_iff_exists'.1 (mt List.getLast?_eq_none_iff.1 hsome)
  obtain ⟨hmem, hheard⟩ := List.mem_filter.1 (List.mem_of_getLast? hp)
  obtain ⟨j, hj, hid, hmessage⟩ := (mem_inputMessages_iff hnodup).1 hmem
  have hinput : j.kind = .input := Payload.message?_isSome_iff.1 (Option.isSome_of_mem hmessage)
  refine ⟨j, p.2, ?_, hmessage, ?_⟩
  · refine (hears_iff_mem_heard hclosed hnodup hr hrunner hj hinput).2 ?_
    rw [hid]
    exact of_decide_eq_true hheard
  · rw [lastMessage?, hp]
    rfl

/-- **After all messages were propagated, every runner is up to date**, whatever the runners started
with before. -/
theorem upToDate_resync (hclosed : g.Closed) (hnodup : g.nodeIds.Nodup) (hh : g.resync = .ok h) :
    h.UpToDate := by
  obtain rfl := Except.ok.inj ((resync_eq hclosed hnodup).symm.trans hh)
  refine (upToDate_map_iff fun _ _ => ⟨updated_id _ _, updated_kind _ _⟩).2
    fun r hr hrunner ⟨i, hi⟩ => ?_
  obtain ⟨j, m, hj, hmessage, hlast⟩ := exists_lastMessage? hclosed hnodup hr hrunner hi
  refine ⟨j, hj, ?_⟩
  have hkept : ∀ o, updated j o = j := updated_of_kind_ne (by rw [hj.2.1]; decide)
  rw [hkept, hlast, hmessage]
  exact Payload.input?_withInput hrunner m

/-! ### A new node -/

theorem Closed.mem_of_feeds (hclosed : g.Closed) {a b : NodeId} (hab : g.Feeds a b) :
    a ∈ g.nodeIds ∧ b ∈ g.nodeIds := by
  obtain ⟨c, hcarries, e, he, hsource, htarget⟩ := hab
  refine ⟨?_, htarget ▸ (hclosed e he).2⟩
  rcases hcarries.cases_head with rfl | ⟨d, hpasses, -⟩
  · exact hsource ▸ (hclosed e he).1
  · obtain ⟨⟨e', he', hsource', -⟩, -⟩ := hpasses
    exact hsource' ▸ (hclosed e' he').1

/-- A new node is on no path. -/
theorem feeds_append_node_iff (hclosed : g.Closed) (hnodup : g.nodeIds.Nodup)
    (hnew : n.id ∉ g.nodeIds) {a b : NodeId} :
    Feeds { g with nodes := g.nodes ++ [n] } a b ↔ g.Feeds a b := by
  have hpasses : Passes { g with nodes := g.nodes ++ [n] } = g.Passes := by
    funext x y
    refine propext (and_congr_right fun hjoins => ?_)
    obtain ⟨e, he, -, rfl⟩ := hjoins
    rw [hasKind_iff hnodup, hasKind_iff (nodup_append_node hnodup hnew)]
    constructor
    · rintro ⟨k, hk, hid, hkind⟩
      rcases mem_append_node.1 hk with hk | rfl
      · exact ⟨k, hk, hid, hkind⟩
      · exact absurd hid.symm (hclosed.ne_of_not_mem hnew e he).2
    · rintro ⟨k, hk, hid, hkind⟩
      exact ⟨k, List.mem_append_left _ hk, hid, hkind⟩
  rw [Feeds, Feeds, Carries, Carries, hpasses]

/-- A node that no edge touches hears nothing and is heard by none, so it leaves all runners up to
date. -/
theorem UpToDate.append_node (hup : g.UpToDate) (hclosed : g.Closed) (hnodup : g.nodeIds.Nodup)
    (hnew : n.id ∉ g.nodeIds) : UpToDate { g with nodes := g.nodes ++ [n] } := by
  -- whoever hears or is heard was there before
  have hhears : ∀ r i, Hears { g with nodes := g.nodes ++ [n] } r i → r.id ∈ g.nodeIds ∧
      g.Hears r i := by
    rintro r i ⟨hi, hinput, hfeeds⟩
    rw [feeds_append_node_iff hclosed hnodup hnew] at hfeeds
    obtain ⟨himem, hrmem⟩ := hclosed.mem_of_feeds hfeeds
    refine ⟨hrmem, ?_, hinput, hfeeds⟩
    rcases mem_append_node.1 hi with hi | rfl
    · exact hi
    · exact absurd himem hnew
  intro r hr hrunner hex
  obtain ⟨j, hj⟩ := hex
  obtain ⟨hrmem, hj⟩ := hhears r j hj
  have hr' : r ∈ g.nodes := by
    rcases mem_append_node.1 hr with hr | rfl
    · exact hr
    · exact absurd hrmem hnew
  obtain ⟨i, ⟨hi, hinput, hfeeds⟩, heq⟩ := hup r hr' hrunner ⟨j, hj⟩
  refine ⟨i, ⟨List.mem_append_left _ hi, hinput, ?_⟩, heq⟩
  exact (feeds_append_node_iff hclosed hnodup hnew).2 hfeeds

end Graph
end AgentFlow

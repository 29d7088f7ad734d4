import AgentFlow.Proofs.Change
import AgentFlow.Proofs.UpToDate
import AgentFlow.Settings

/-!
# Histories of a store

What holds of the graph in a store after any history of operations, however the store was opened and
whether or not the operations were refused.

## Main definitions

* `Store.Opened`: the ways to open a store.

## Main results

* `Store.findings_run`: **a graph that was in order stays in order, up to repeated edge ids.**
* `Store.upToDate_run`: **no runner is left with an old message.**
-/

namespace AgentFlow
namespace Graph

variable {c : Command} {g h : Graph}

/-! ### Changes and the shape of a graph -/

theorem resync_eq_refreshed (hclosed : g.Closed) (hnodup : g.nodeIds.Nodup) :
    g.resync = .ok g.refreshed := by
  rw [refreshed, resync_eq hclosed hnodup]

/-- Bringing runners up to date changes nothing else. -/
theorem sameShape_refreshed (hclosed : g.Closed) (hnodup : g.nodeIds.Nodup) :
    SameShape g g.refreshed := by
  obtain heq := Except.ok.inj ((resync_eq_refreshed hclosed hnodup).symm.trans
    (resync_eq hclosed hnodup))
  rw [heq]
  exact .of_map fun _ _ => ⟨updated_id _ _, updated_kind _ _⟩

/-- A payload of the same kind takes the place of one node's payload and of no other. -/
theorem edited_eq (hnodup : g.nodeIds.Nodup) {n : Node} (hn : g.firstNode? n.id = some n)
    (p : Payload) {m : Node} (hm : m ∈ g.nodes) :
    (if m.id = n.id then { n with payload := p } else m) = m ∨
      m = n ∧ (if m.id = n.id then { n with payload := p } else m) = { n with payload := p } := by
  by_cases hid : m.id = n.id
  · right
    exact ⟨eq_of_id_eq hnodup hm (mem_of_firstNode? hn).1 hid, if_pos hid⟩
  · left
    exact if_neg hid

/-- Replacing the payload of a node by one of its kind changes neither ids nor kinds. -/
theorem sameShape_edited (hnodup : g.nodeIds.Nodup) {n : Node} (hn : g.firstNode? n.id = some n)
    {p : Payload} (hkind : p.kind = n.kind) : ∀ m ∈ g.nodes,
      (if m.id = n.id then { n with payload := p } else m).id = m.id ∧
        (if m.id = n.id then { n with payload := p } else m).kind = m.kind := by
  intro m hm
  rcases edited_eq hnodup hn p hm with heq | ⟨rfl, heq⟩
  · rw [heq]
    exact ⟨rfl, rfl⟩
  · rw [heq]
    exact ⟨rfl, hkind⟩

/-! ### Sound graphs -/

theorem Sound.refreshed (hg : g.Sound) : g.refreshed.Sound :=
  hg.of_sameShape (sameShape_refreshed hg.closed hg.nodup)

/-- Every change keeps a graph sound, as long as the documents that are loaded are. -/
theorem Change.sound (hchange : Change c g h) (hg : g.Sound)
    (hload : ∀ d, c = .load d → d.graph.Closed → d.graph.Sound) : h.Sound := by
  cases hchange with
  | keep => exact hg
  | load d hc hclosed => exact (hload d hc hclosed).refreshed
  | append n hnew => exact hg.append_node hnew
  | remove id => exact hg.without.refreshed
  | edit n p hn hkind _ _ => exact hg.of_sameShape (.of_map (sameShape_edited hg.nodup hn hkind))
  | tell n m _ _ hn hkind hpropagate =>
    obtain rfl := Except.ok.inj ((propagate_eq hg.closed hn hkind m).symm.trans hpropagate)
    exact hg.of_sameShape (sameShape_received g n.id m _)
  | draw s t e hs ht hcheck =>
    obtain ⟨hsmem, hsource⟩ := mem_of_firstNode? hs
    obtain ⟨htmem, htarget⟩ := mem_of_firstNode? ht
    exact (hg.append_edge hsmem htmem hsource.symm htarget.symm hcheck).refreshed
  | erase p => exact (hg.filter_edges p).refreshed

/-! ### Graphs with nothing old in them -/

/-- No id is repeated, every edge has its ends, and every runner is up to date. -/
structure Current (g : Graph) : Prop where
  nodup : g.nodeIds.Nodup
  closed : g.Closed
  upToDate : g.UpToDate

theorem current_refreshed (hclosed : g.Closed) (hnodup : g.nodeIds.Nodup) :
    g.refreshed.Current := by
  have hshape := sameShape_refreshed hclosed hnodup
  refine ⟨?_, hshape.closed hclosed, ?_⟩
  · rw [hshape.nodeIds_eq]
    exact hnodup
  · exact upToDate_resync hclosed hnodup (resync_eq_refreshed hclosed hnodup)

theorem Current.of_sameShape (hg : g.Current) (hgh : SameShape g h) (hup : h.UpToDate) :
    h.Current := by
  refine ⟨?_, hgh.closed hg.closed, hup⟩
  rw [hgh.nodeIds_eq]
  exact hg.nodup

/-- Every change leaves nothing old behind, as long as no document that is loaded repeats an id. -/
theorem Change.current (hchange : Change c g h) (hg : g.Current)
    (hload : ∀ d, c = .load d → d.graph.nodeIds.Nodup) : h.Current := by
  cases hchange with
  | keep => exact hg
  | load d hc hclosed => exact current_refreshed hclosed (hload d hc)
  | append n hnew =>
    exact ⟨nodup_append_node hg.nodup hnew, hg.closed.append_node,
      hg.upToDate.append_node hg.closed hg.nodup hnew⟩
  | remove id => exact current_refreshed hg.closed.without (nodup_without hg.nodup)
  | edit n p hn hkind hmessage hinput =>
    -- other members than messages may differ now, and runners do not depend on them
    have hshape := sameShape_edited hg.nodup hn hkind
    refine hg.of_sameShape (.of_map hshape) (hg.upToDate.of_map hshape fun m hm => ?_)
    rcases edited_eq hg.nodup hn p hm with heq | ⟨rfl, heq⟩
    · rw [heq]
      exact ⟨rfl, rfl⟩
    · rw [heq]
      exact ⟨hmessage, hinput⟩
  | tell n m _ _ hn hkind hpropagate =>
    -- only one input is propagated here, so this needs that the others were before
    obtain rfl := Except.ok.inj ((propagate_eq hg.closed hn hkind m).symm.trans hpropagate)
    exact hg.of_sameShape (sameShape_received g n.id m _)
      (hg.upToDate.received hg.closed hg.nodup (mem_of_firstNode? hn).1 hkind m)
  | draw s t e hs ht _ =>
    obtain ⟨hsmem, hsource⟩ := mem_of_firstNode? hs
    obtain ⟨htmem, htarget⟩ := mem_of_firstNode? ht
    have hclosed := hg.closed.append_edge (hsource ▸ id_mem_nodeIds hsmem)
      (htarget ▸ id_mem_nodeIds htmem)
    exact current_refreshed hclosed hg.nodup
  | erase p => exact current_refreshed (fun e he => hg.closed e (List.mem_filter.1 he).1) hg.nodup

end Graph

/-! ### Histories -/

namespace Store

/-- The ways to open a store: with a new workflow, or with a document that is in order. -/
inductive Opened : Store → Prop where
  /-- A new workflow. -/
  | fresh (settings : Settings) : Opened { document := settings.newDocument }
  /-- A document in which nothing is found. -/
  | document {d : Document} {s : Store} (hd : d.graph.findings = []) (hs : ofDocument d = .ok s) :
    Opened s

variable {s : Store} {commands : List Command}

theorem graph_newDocument (settings : Settings) :
    graph { document := settings.newDocument } = { nodes := [], edges := [] } := rfl

theorem ofDocument_eq_ok_iff {d : Document} :
    ofDocument d = .ok s ↔ d.graph.Closed ∧ s = { document := d } := by
  rw [ofDocument, bind_eq_ok_iff]
  constructor
  · rintro ⟨_, hrefs, hs⟩
    exact ⟨Graph.checkReferences_eq_ok_iff.1 hrefs, (Except.ok.inj hs).symm⟩
  · rintro ⟨hclosed, rfl⟩
    exact ⟨(), Graph.checkReferences_eq_ok_iff.2 hclosed, rfl⟩

/-- The empty graph breaks no rule. -/
theorem sound_nil : Graph.Sound { nodes := [], edges := [] } :=
  (Graph.findings_eq_nil_iff.1 (by decide +kernel)).1

theorem Opened.sound (hs : s.Opened) : s.graph.Sound := by
  cases hs with
  | fresh settings => exact sound_nil
  | document hd hs =>
    obtain ⟨-, rfl⟩ := ofDocument_eq_ok_iff.1 hs
    exact (Graph.findings_eq_nil_iff.1 hd).1

/-- **A graph that was in order stays in order.**  However a store was opened and whatever happens
to it, nothing is ever found in its graph but repeated edge ids, as long as every document that is
loaded is refused or in order. -/
theorem findings_run (hs : s.Opened)
    (hload : ∀ d, Command.load d ∈ commands →
      (∃ r, d.graph.checkReferences = .error r) ∨ d.graph.findings = []) :
    (∀ f ∈ (s.run commands).graph.findings, f.code = "DUPLICATE_EDGE_ID") ∧
      (s.run commands).graph.Sound := by
  have hsound : (s.run commands).graph.Sound := by
    refine run_induction (fun c hc g h hg hchange => hchange.sound hg ?_) hs.sound
    rintro d rfl hclosed
    rcases hload d hc with ⟨r, hr⟩ | hd
    · -- a document that is refused is not closed
      rw [Graph.checkReferences_eq_ok_iff.2 hclosed] at hr
      exact absurd hr (by simp)
    · exact (Graph.findings_eq_nil_iff.1 hd).1
  exact ⟨Graph.forall_findings_code_iff.2 hsound, hsound⟩

/-- A document with an edge that leads nowhere. -/
def danglingDocument : Document :=
  { graph := { nodes := [⟨"a", none, .agent {}⟩], edges := [⟨"e", "a", "gone"⟩] } }

/-- A history with two refusals, one failure and an edge id that is used twice. -/
def roughHistory : List Command :=
  [.proposeEdge "b" "a" none, .load danglingDocument, .removeNode "gone",
    .addNodeOfKind .agent (some "c") none, .proposeEdge "b" "c" (some "e1")]

/-- After a rough history nothing is found but the edge id that is used twice. -/
theorem findings_run_roughHistory :
    let s : Store := { document := { graph := Graph.handoffPair } }
    s.Opened ∧ (∃ r, danglingDocument.graph.checkReferences = .error r) ∧
      (s.run roughHistory).graph.findings.map (·.code) = ["DUPLICATE_EDGE_ID"] ∧
      (∀ f ∈ (s.run roughHistory).graph.findings, f.code = "DUPLICATE_EDGE_ID") ∧
      (s.run roughHistory).graph.Sound := by
  intro s
  have hs : s.Opened := .document (d := s.document) (by decide +kernel) rfl
  have hrefused : ∃ r, danglingDocument.graph.checkReferences = .error r := ⟨_, rfl⟩
  refine ⟨hs, hrefused, by decide +kernel, findings_run hs fun d hd => Or.inl ?_⟩
  obtain rfl : d = danglingDocument := by simpa [roughHistory] using hd
  exact hrefused

theorem current_nil : Graph.Current { nodes := [], edges := [] } :=
  ⟨List.nodup_nil, sound_nil.closed, fun _ hr => absurd hr List.not_mem_nil⟩

/-- **No runner is left with an old message.**  Whatever happens to a new workflow, a runner that
hears an input starts with the message that an input it hears has now, as long as no document that
is loaded repeats an id. -/
theorem upToDate_run (settings : Settings)
    (hload : ∀ d, Command.load d ∈ commands → d.graph.nodeIds.Nodup) :
    (run { document := settings.newDocument } commands).graph.UpToDate := by
  refine (run_induction (P := Graph.Current) (fun c hc g h hg hchange => ?_) ?_).upToDate
  · exact hchange.current hg fun d hd => hload d (hd ▸ hc)
  · rw [graph_newDocument]
    exact current_nil

/-- A document with one agent. -/
def agentDocument : Document :=
  { graph := { nodes := [⟨"a", none, .agent {}⟩], edges := [] } }

/-- A history that connects a runner to an input through an agent, and changes the message. -/
def chatHistory : List Command :=
  [.load agentDocument, .addNodeOfKind .input (some "i") none,
    .addNodeOfKind .runner (some "r") none, .proposeEdge "a" "r" none, .proposeEdge "i" "a" none,
    .setInputMessage "i" (.text "hello"), .setField "r" "input" (.text "mine"),
    .setField "i" "message" (.text "bye")]

/-- After a chat the runner starts with the last message. -/
theorem upToDate_run_chatHistory :
    let settings : Settings := ⟨"INFO", [], "Chat", true⟩
    let s : Store := { document := settings.newDocument }
    agentDocument.graph.nodeIds.Nodup ∧
      (s.run chatHistory).graph.nodes.filterMap (·.payload.input?) = ["bye"] ∧
      (s.run chatHistory).graph.UpToDate := by
  intro settings s
  have hnodup : agentDocument.graph.nodeIds.Nodup := by decide
  refine ⟨hnodup, by decide +kernel, upToDate_run settings fun d hd => ?_⟩
  obtain rfl : d = agentDocument := by simpa [chatHistory] using hd
  exact hnodup

end Store
end AgentFlow

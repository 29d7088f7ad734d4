import AgentFlow.Proofs.Connection
import AgentFlow.Proofs.Field
import AgentFlow.Store.Run

/-!
# What an operation can do

Every operation of the store changes the graph in one of a few ways, or not at all.  What holds of a
graph throughout a history is what these changes keep.

## Main definitions

* `Graph.refreshed`: a graph with its runners brought up to date.
* `Command.edited?`: the input whose message an operation edits.
* `Command.resyncs`: whether an operation brings runners up to date when it is done.
* `Graph.Change`: the ways in which an operation changes a graph.

## Main results

* `Store.step_change`: **an operation changes the graph in one of these ways.**
* `Store.run_induction`: what every change keeps holds throughout a history.
* `Store.forall_prefix_run_iff`: what holds at first holds throughout a history exactly if no
  operation breaks it.
-/

namespace AgentFlow

/-- The graph with its runners brought up to date, or as it is if that fails. -/
def Graph.refreshed (g : Graph) : Graph :=
  match g.resync with
  | .ok h => h
  | .error _ => g

/-- The node whose message an operation edits. -/
def Command.edited? : Command → Option NodeId
  | .setInputMessage id _ => some id
  | .setField id field _ => if field = "message" then some id else none
  | _ => none

/-- The operation brings the runners up to date after it has changed nodes or edges. -/
def Command.resyncs : Command → Bool
  | .load _ => true
  | .removeNode _ => true
  | .proposeEdge _ _ _ => true
  | .removeEdge _ => true
  | _ => false

/-- The ways in which an operation changes a graph.  Edges change only where the runners are brought
up to date afterwards. -/
inductive Graph.Change (c : Command) (g : Graph) : Graph → Prop where
  /-- Nothing changes. -/
  | keep : Change c g g
  /-- The graph of a document takes its place. -/
  | load (d : Document) (hc : c = .load d) (hclosed : d.graph.Closed) : Change c g d.graph.refreshed
  /-- A node with a new id is added. -/
  | append (n : Node) (hnew : n.id ∉ g.nodeIds) : Change c g { g with nodes := g.nodes ++ [n] }
  /-- The nodes with an id are taken away, with the edges that touch them. -/
  | remove (id : NodeId) (hc : c.resyncs = true) : Change c g (g.without id).refreshed
  /-- A node is given another payload of its kind, with the same messages. -/
  | edit (n : Node) (p : Payload) (hn : g.firstNode? n.id = some n) (hkind : p.kind = n.kind)
      (hmessage : p.message? = n.payload.message?) (hinput : p.input? = n.payload.input?) :
      Change c g { g with
        nodes := g.nodes.map fun m => if m.id = n.id then { n with payload := p } else m }
  /-- An input is given another message, which is propagated. -/
  | tell (n : Node) (m : String) (h : Graph) (hc : c.edited? = some n.id)
      (hn : g.firstNode? n.id = some n) (hkind : n.kind = .input)
      (hpropagate : g.propagate n.id m = .ok h) : Change c g h
  /-- An edge is drawn that passes the check. -/
  | draw (s t : Node) (e : Edge) (hs : g.firstNode? e.source = some s)
      (ht : g.firstNode? e.target = some t) (hcheck : checkConnection s t g.edges = none)
      (hc : c.resyncs = true) : Change c g (Graph.refreshed { g with edges := g.edges ++ [e] })
  /-- Edges are taken away. -/
  | erase (p : Edge → Bool) (hc : c.resyncs = true) :
      Change c g (Graph.refreshed { g with edges := g.edges.filter p })

namespace Store

variable {s : Store} {c : Command}

theorem resyncThen_graph {α : Type} (a : α) : (s.resyncThen a).store.graph = s.graph.refreshed := by
  unfold resyncThen Graph.refreshed
  cases s.graph.resync <;> rfl

theorem resyncThen_of_eq_ok {α : Type} {g : Graph} (hresync : s.graph.resync = .ok g) (a : α) :
    s.resyncThen a = ⟨s.withGraph g, .ok a⟩ := by
  rw [resyncThen, hresync]
  rfl

/-- A node that the store finds is the first one with its id. -/
theorem node_eq_ok_iff {id : NodeId} {n : Node} :
    s.node id = .ok n ↔ s.graph.firstNode? id = some n := by
  unfold node
  cases s.graph.firstNode? id <;> simp

/-- A node is appended if its id is new, and otherwise the operation is refused. -/
theorem addNode_change (n : Node) : Graph.Change c s.graph (s.addNode n).store.graph := by
  unfold addNode
  split
  · exact .keep
  · next h =>
    refine .append n fun hmem => ?_
    obtain ⟨k, hk⟩ := Graph.exists_firstNode? hmem
    simp [hk] at h

theorem removeNode_change (id : NodeId) (hc : c.resyncs = true) :
    Graph.Change c s.graph (s.removeNode id).store.graph := by
  unfold removeNode
  split
  · exact .keep
  · rw [resyncThen_graph]
    exact .remove id hc

/-- Whether a node is expanded is a matter of its heading, so neither its message nor its input is
touched. -/
theorem toggleExpansion_change (id : NodeId) :
    Graph.Change c s.graph (s.toggleExpansion id).store.graph := by
  unfold toggleExpansion
  split
  · exact .keep
  · next n hn =>
    have hfirst := node_eq_ok_iff.1 hn
    obtain ⟨-, rfl⟩ := Graph.mem_of_firstNode? hfirst
    refine .edit n n.payload.toggled hfirst (Payload.kind_toggled _) ?_ ?_
    · cases n.payload <;> rfl
    · cases n.payload <;> rfl

/-- Setting a message either fails, and keeps the graph, or tells it to all runners that hear the
input. -/
theorem setInputMessage_change (id : NodeId) (message : Json) (hc : c.edited? = some id) :
    Graph.Change c s.graph (s.setInputMessage id message).store.graph := by
  unfold setInputMessage
  split
  · exact .keep
  · next n hn =>
    have hfirst := node_eq_ok_iff.1 hn
    obtain ⟨-, rfl⟩ := Graph.mem_of_firstNode? hfirst
    split
    · exact .keep
    · next hkind =>
      split
      · split
        · next h hpropagate => exact .tell n _ h hc hfirst (not_not.1 hkind) hpropagate
        · exact .keep
      · exact .keep

/-- A payload with one member edited takes the place of the old one. -/
theorem replacePayload_change {n : Node} (hn : s.graph.firstNode? n.id = some n) {f : FieldName}
    {v : Json} {p : Payload} (hp : editedPayload n.payload f v = .valid p)
    (hmessage : n.kind = .input → f.plain ≠ "message")
    (hinput : n.kind = .runner → f.plain ≠ "input") :
    Graph.Change c s.graph (s.replacePayload n p).store.graph := by
  exact .edit n p hn (editedPayload_kind hp) (editedPayload_message? hp hmessage)
    (editedPayload_input? hp hinput)

/-- A member that is found by a name has the name as one of its spellings. -/
theorem mem_of_resolve? {k : Kind} {field : String} {f : FieldName}
    (hf : Payload.resolve? k field = some f) :
    f ∈ Payload.fieldNames k ∧ (f.plain = field ∨ f.editor = field) := by
  unfold Payload.resolve? at hf
  split at hf
  · next h =>
    obtain rfl := Option.some.inj hf
    exact ⟨List.mem_of_find?_eq_some h, Or.inl (by simpa using List.find?_some h)⟩
  · exact ⟨List.mem_of_find?_eq_some hf, Or.inr (by simpa using List.find?_some hf)⟩

/-- The message of an input has a single spelling, so an edit under any other name is not an edit of
the message. -/
theorem eq_of_resolve?_message {field : String} {f : FieldName}
    (hf : Payload.resolve? .input field = some f) (hplain : f.plain = "message") :
    field = "message" := by
  obtain ⟨hmem, hspelling⟩ := mem_of_resolve? hf
  have hsame : f.editor = f.plain := by
    have hall : ∀ f ∈ Payload.fieldNames .input, f.plain = "message" → f.editor = f.plain := by
      decide
    exact hall f hmem hplain
  rw [hsame, or_self, hplain] at hspelling
  exact hspelling.symm

/-- An edit fails, or replaces one payload by another of its kind, or is the setting of a message in
disguise.  The last happens only under the name `message`. -/
theorem setField_change (id : NodeId) (field : String) (value : Json) :
    Graph.Change (.setField id field value) s.graph (s.setField id field value).store.graph := by
  unfold setField
  split
  · exact .keep
  · next n hn =>
    have hfirst := node_eq_ok_iff.1 hn
    obtain ⟨-, rfl⟩ := Graph.mem_of_firstNode? hfirst
    split
    · exact .keep
    · split
      · exact .keep
      · next f hf =>
        split
        · exact .keep
        · next hderived =>
          have hinput : n.kind = .runner → f.plain ≠ "input" := fun hkind hplain =>
            hderived ⟨hkind, hplain⟩
          split
          · exact .keep
          · next p hp =>
            split
            · next d =>
              split
              · next hplain =>
                have hkind : n.kind = .input := (editedPayload_kind hp).symm
                rw [hkind] at hf
                refine setInputMessage_change n.id (.text d.message) ?_
                rw [eq_of_resolve?_message hf hplain]
                rfl
              · next hplain => exact replacePayload_change hfirst hp (fun _ => hplain) hinput
            · next hother =>
              refine replacePayload_change hfirst hp (fun hkind => ?_) hinput
              -- the edited payload is an input as well, and this case is about the others
              have hedited := editedPayload_kind hp
              rw [show n.payload.kind = .input from hkind] at hedited
              cases p with
              | input d => exact absurd rfl (hother d)
              | _ => simp [Payload.kind] at hedited

/-- A proposed edge is drawn between the nodes that are found for its ends if the check finds no
fault, and is otherwise dropped. -/
theorem proposeEdge_change (source target : NodeId) (id : Option EdgeId) (hc : c.resyncs = true) :
    Graph.Change c s.graph (s.proposeEdge source target id).store.graph := by
  unfold proposeEdge
  split
  · exact .keep
  · exact .keep
  · next a b ha hb =>
    split
    · exact .keep
    · next hcheck =>
      rw [resyncThen_graph]
      exact .draw a b _ (node_eq_ok_iff.1 ha) (node_eq_ok_iff.1 hb) hcheck hc

theorem removeEdge_change (id : EdgeId) (hc : c.resyncs = true) :
    Graph.Change c s.graph (s.removeEdge id).store.graph := by
  simp only [removeEdge]
  split
  · exact .keep
  · rw [resyncThen_graph]
    exact .erase (·.id ≠ id) hc

/-- A document is loaded as a whole and brought up to date, or it is refused because some edge has
no end. -/
theorem load_change (d : Document) :
    Graph.Change (.load d) s.graph (s.load d).store.graph := by
  unfold load
  split
  · exact .keep
  · next hclosed =>
    rw [resyncThen_graph]
    exact .load d rfl (Graph.checkReferences_eq_ok_iff.1 hclosed)

/-- **An operation changes the graph in one of these ways.**  Invariants of histories are proved
from this and never look at the operations themselves. -/
theorem step_change (s : Store) (c : Command) : Graph.Change c s.graph (s.step c).store.graph := by
  cases c with
  | setName name => exact .keep
  | setDescription description => exact .keep
  | load d => exact load_change d
  | addNode n => exact addNode_change n
  | addNodeOfKind k id position =>
    let created := Node.create s.tokens k id position (some s.graph)
    exact addNode_change (s := { s with tokens := created.2 }) created.1
  | removeNode id => exact removeNode_change id rfl
  | toggleExpansion id => exact toggleExpansion_change id
  | setField id field value => exact setField_change id field value
  | setInputMessage id message => exact setInputMessage_change id message rfl
  | proposeEdge source target id => exact proposeEdge_change source target id rfl
  | removeEdge id => exact removeEdge_change id rfl

/-! ### Histories -/

theorem run_append (s : Store) (before after : List Command) :
    s.run (before ++ after) = (s.run before).run after :=
  List.foldl_append

/-- What every change keeps holds throughout a history. -/
theorem run_induction {P : Graph → Prop} {commands : List Command}
    (hstep : ∀ c ∈ commands, ∀ g h, P g → Graph.Change c g h → P h) (hs : P s.graph) :
    P (s.run commands).graph := by
  induction commands generalizing s with
  | nil => exact hs
  | cons c commands ih =>
    rw [run_cons]
    exact ih (fun d hd => hstep d (List.mem_cons_of_mem _ hd))
      (hstep c List.mem_cons_self _ _ hs (s.step_change c))

/-- **What holds at first holds throughout a history exactly if no operation breaks it**, where an
operation that is carried out while it holds keeps it or breaks it. -/
theorem forall_prefix_run_iff {P : Store → Prop} {Breaks : Store → Command → Prop}
    {commands : List Command} (hs : P s)
    (hstep : ∀ before c, before ++ [c] <+: commands → P (s.run before) →
      (P ((s.run before).step c).store ↔ ¬ Breaks (s.run before) c)) :
    (∀ before, before <+: commands → P (s.run before)) ↔
      ∀ before c, before ++ [c] <+: commands → ¬ Breaks (s.run before) c := by
  constructor
  · intro hall before c hbefore
    have hnext := hall _ hbefore
    rw [run_append] at hnext
    exact (hstep before c hbefore (hall before ((List.prefix_append _ _).trans hbefore))).1 hnext
  · -- by induction on what has been carried out, which grows at its end
    intro hnone before hbefore
    induction before using List.reverseRecOn with
    | nil => exact hs
    | append_singleton before c ih =>
      have hp := ih ((List.prefix_append _ _).trans hbefore)
      rw [run_append]
      exact (hstep before c hbefore hp).2 (hnone before c hbefore)

end Store
end AgentFlow

import AgentFlow.Proofs.Proposal

/-!
# Operations that fail

An operation that fails leaves the document as it was.  This is plain where an operation checks
first and changes afterwards.  Four operations put a new document in place before they bring its
runners up to date, and there the second step must not fail: it follows messages along edges, and
would stop at an edge that ends nowhere or at an id that an input shares with another node.

## Main definitions

* `Failure.Category`, `Failure.Expected`: the failures that callers tell apart.
* `Store.Replaces`: an operation has put another document in place.
* `Store.Spares`: an operation that fails leaves the document as it was.

## Main results

* `Store.Replaces.exists_resync`: the runners of a document put in place can be brought up to date.
* `Store.step_atomic`: **operations that fail change nothing, and fail for a known reason.**
-/

namespace AgentFlow

/-! ### Reasons to fail -/

/-- The kinds of failures that callers tell apart. -/
inductive Failure.Category where
  /-- A node that is asked for is not there. -/
  | missingNode
  /-- An edge that is asked for is not there. -/
  | missingEdge
  /-- A node is added under an id that is in use. -/
  | duplicateNode
  /-- An edit does not fit the payload of the node. -/
  | invalidField
  /-- An edge refers to a node that is not there. -/
  | unresolvedReference
  /-- A message was to be propagated from a node that is not an input. -/
  | notPropagated
  deriving DecidableEq, Repr

namespace Failure

/-- The kind of a failure. -/
def category : Failure → Category
  | .unresolved _ => .unresolvedReference
  | .nodeNotFound _ => .missingNode
  | .edgeNotFound _ => .missingEdge
  | .duplicateNode _ => .duplicateNode
  | .fixedField _ => .invalidField
  | .unknownField _ _ => .invalidField
  | .derivedInput _ => .invalidField
  | .invalidValue _ _ _ => .invalidField
  | .messageOnNonInput _ => .invalidField
  | .messageNotText _ => .invalidField
  | .notInput _ => .notPropagated

/-- The failure is one that an operation is known to end in.  Edges that end nowhere are complained
about only when a document is loaded. -/
def Expected (c : Command) (e : Failure) : Prop :=
  e.category ∈ [Category.missingNode, .missingEdge, .duplicateNode, .invalidField] ∨
    e.category = .unresolvedReference ∧ ∃ d, c = .load d

end Failure

namespace Store

variable {s t : Store} {c : Command} {reply : Reply} {α β : Type}

/-! ### Operations that check first -/

/-- If the operation fails, the document is as it was and the failure is a known one. -/
def Spares (s : Store) (c : Command) (o : Outcome α) : Prop :=
  ∀ e, o.result = .error e → o.store.document = s.document ∧ e.Expected c

theorem spares_answer (t : Store) (a : α) : s.Spares c (t.answer a) := by
  intro e he
  simp [answer] at he

theorem spares_fail {e : Failure}
    (he : e.category ∈ [Failure.Category.missingNode, .missingEdge, .duplicateNode,
      .invalidField]) : s.Spares c (s.fail (α := α) e) := by
  intro e' he'
  obtain rfl := Except.error.inj he'
  exact ⟨rfl, Or.inl he⟩

theorem Spares.map {o : Outcome α} (h : s.Spares c o) (f : α → β) : s.Spares c (o.map f) := by
  intro e he
  cases hresult : o.result with
  | error e' =>
    rw [Outcome.map, hresult] at he
    obtain rfl := Except.error.inj he
    exact h _ hresult
  | ok a =>
    rw [Outcome.map, hresult] at he
    exact absurd he (by simp [Except.map])

/-- A node that is not found is a known failure. -/
theorem category_of_node {id : NodeId} {e : Failure} (h : s.node id = .error e) :
    e.category = .missingNode := by
  unfold node at h
  split at h
  · simp at h
  · obtain rfl := Except.error.inj h
    rfl

theorem spares_of_node {id : NodeId} {e : Failure} (h : s.node id = .error e) :
    s.Spares c (s.fail (α := α) e) :=
  spares_fail (by rw [category_of_node h]; decide)

theorem spares_addNode (n : Node) (tokens : Tokens) :
    s.Spares c (addNode { s with tokens } n) := by
  unfold addNode
  split
  · exact spares_fail (s := { s with tokens }) (by simp [Failure.category])
  · exact spares_answer _ n

theorem spares_toggleExpansion (id : NodeId) : s.Spares c (s.toggleExpansion id) := by
  unfold toggleExpansion
  split
  · next e he => exact spares_of_node he
  · intro e he
    simp at he

/-- Setting a message fails only before anything was changed: the way of the message is clear. -/
theorem spares_setInputMessage (hclosed : s.graph.Closed) (id : NodeId) (message : Json) :
    s.Spares c (s.setInputMessage id message) := by
  unfold setInputMessage
  split
  · next e he => exact spares_of_node he
  · next n hn =>
    split
    · exact spares_fail (by simp [Failure.category])
    · next hkind =>
      split
      · next m =>
        have hfirst := node_eq_ok_iff.1 hn
        rw [Graph.propagate_eq hclosed hfirst (not_not.1 hkind) m]
        exact spares_answer _ ()
      · exact spares_fail (by simp [Failure.category])

/-- A message that was set through its member is answered with the node, which is still there. -/
theorem spares_setInputMessage_then_node (hclosed : s.graph.Closed) (id : NodeId) (m : String) :
    s.Spares c
      { s.setInputMessage id (.text m) with
        result := (s.setInputMessage id (.text m)).result.bind fun _ =>
          (s.setInputMessage id (.text m)).store.node id } := by
  intro e he
  rcases tells_setInputMessage (s := s) id (.text m) with
    ⟨⟨e', he'⟩, -⟩ | ⟨⟨reply, hreply⟩, n, m', hn, hkind, hpropagate⟩
  · rw [he'] at he
    obtain rfl := Except.error.inj he
    exact spares_setInputMessage hclosed id (.text m) _ he'
  · obtain ⟨k, hk⟩ := exists_node_of_propagate hclosed hn hkind hpropagate
    rw [hreply] at he
    exact absurd (he.symm.trans hk) (by simp)

/-- An edit fails without touching the store.  The one edit that does more than replace a payload is
that of a message, which fails only before it is sent. -/
theorem spares_setField (hclosed : s.graph.Closed) (id : NodeId) (field : String) (value : Json) :
    s.Spares c (s.setField id field value) := by
  unfold setField
  split
  · next e he => exact spares_of_node he
  · next n hn =>
    split
    · exact spares_fail (by simp [Failure.category])
    · split
      · exact spares_fail (by simp [Failure.category])
      · split
        · exact spares_fail (by simp [Failure.category])
        · split
          · exact spares_fail (by simp [Failure.category])
          · split
            · split
              · exact spares_setInputMessage_then_node hclosed id _
              · exact spares_answer _ _
            · exact spares_answer _ _

/-! ### Operations that put a document in place -/

/-- The operation has passed its checks and has put the document of another store in place.  What is
left is to bring the runners of that document up to date, and to answer. -/
inductive Replaces (s : Store) : Command → Store → Reply → Prop where
  /-- A document is loaded, and its edges have their ends. -/
  | load (d : Document) (hrefs : d.graph.checkReferences = .ok ()) :
    Replaces s (.load d) { s with document := d } .done
  /-- A node that is there is removed, with its edges. -/
  | removeNode (n : Node) (id : NodeId) (hn : s.graph.firstNode? id = some n) :
    Replaces s (.removeNode id) (s.withGraph (s.graph.without id)) .done
  /-- An edge that passes the check is drawn. -/
  | proposeEdge (a b : Node) (source target : NodeId) (id : Option EdgeId)
    (ha : s.graph.firstNode? source = some a) (hb : s.graph.firstNode? target = some b)
    (hcheck : checkConnection a b s.graph.edges = none) :
    Replaces s (.proposeEdge source target id)
      (withGraph { s with tokens := (edgeIdOr s.tokens source target id).2 }
        (s.graph.drawn [⟨(edgeIdOr s.tokens source target id).1, source, target⟩]))
      (.verdict none)
  /-- An edge that is there is removed. -/
  | removeEdge (e : Edge) (he : e ∈ s.graph.edges) :
    Replaces s (.removeEdge e.id)
      (s.withGraph { s.graph with edges := s.graph.edges.filter (·.id ≠ e.id) }) .done

theorem map_resyncThen (t : Store) (a : α) (f : α → β) :
    (t.resyncThen a).map f = t.resyncThen (f a) := by
  unfold resyncThen
  cases t.graph.resync <;> rfl

theorem length_filter_ne_iff {edges : List Edge} {id : EdgeId} :
    (edges.filter (·.id ≠ id)).length = edges.length ↔ ∀ e ∈ edges, e.id ≠ id := by
  rw [List.length_filter_eq_length_iff]
  simp

theorem removeEdge_eq {e : Edge} (he : e ∈ s.graph.edges) : s.removeEdge e.id =
    (s.withGraph { s.graph with edges := s.graph.edges.filter (·.id ≠ e.id) }).resyncThen () := by
  have hfewer : ¬ (s.graph.edges.filter (·.id ≠ e.id)).length = s.graph.edges.length :=
    fun hlength => length_filter_ne_iff.1 hlength e he rfl
  simp only [removeEdge]
  rw [if_neg hfewer]

/-- What is left of an operation that has put a document in place. -/
theorem Replaces.step_eq (h : s.Replaces c t reply) : s.step c = t.resyncThen reply := by
  cases h with
  | load d hrefs =>
    rw [step, Store.load, hrefs]
    exact map_resyncThen _ _ _
  | removeNode n id hn =>
    rw [step, Store.removeNode, node_eq_ok_iff.2 hn]
    exact map_resyncThen _ _ _
  | proposeEdge a b source target id ha hb hcheck =>
    simp only [step, Store.proposeEdge, node_eq_ok_iff.2 ha, node_eq_ok_iff.2 hb, hcheck]
    exact map_resyncThen _ _ _
  | removeEdge e he =>
    rw [step, removeEdge_eq he]
    exact map_resyncThen _ _ _

/-- The runners of a document that was put in place can be brought up to date. -/
theorem Replaces.exists_resync (h : s.Replaces c t reply) (hnodup : s.graph.nodeIds.Nodup)
    (hclosed : s.graph.Closed) (hload : ∀ d, c = .load d → d.graph.nodeIds.Nodup) :
    ∃ g, t.graph.resync = .ok g := by
  -- all that is needed is that no id is repeated and that every edge has its ends
  suffices hshape : t.graph.nodeIds.Nodup ∧ t.graph.Closed from
    ⟨_, Graph.resync_eq hshape.2 hshape.1⟩
  cases h with
  | load d hrefs => exact ⟨hload d rfl, Graph.checkReferences_eq_ok_iff.1 hrefs⟩
  | removeNode n id hn => exact ⟨Graph.nodup_without hnodup, hclosed.without⟩
  | proposeEdge a b source target id ha hb hcheck =>
    obtain ⟨hamem, rfl⟩ := Graph.mem_of_firstNode? ha
    obtain ⟨hbmem, rfl⟩ := Graph.mem_of_firstNode? hb
    refine ⟨hnodup, hclosed.drawn fun e he => ?_⟩
    rw [List.mem_singleton.1 he]
    exact ⟨Graph.id_mem_nodeIds hamem, Graph.id_mem_nodeIds hbmem⟩
  | removeEdge e he => exact ⟨hnodup, fun x hx => hclosed x (List.mem_filter.1 hx).1⟩

/-- An operation that would bring runners up to date puts a document in place, or does nothing. -/
theorem replaces_or_kept (hc : c.resyncs = true) :
    (∃ t reply, s.Replaces c t reply) ∨ s.Spares c (s.step c) ∧ (s.step c).store = s := by
  cases c with
  | load d =>
    cases hrefs : d.graph.checkReferences with
    | ok _ => exact Or.inl ⟨_, _, .load d hrefs⟩
    | error r =>
      have hstep : s.step (.load d) = s.fail (.unresolved r) := by
        rw [step, load, hrefs]
        rfl
      rw [hstep]
      refine Or.inr ⟨fun e he => ?_, rfl⟩
      obtain rfl := Except.error.inj he
      exact ⟨rfl, Or.inr ⟨rfl, d, rfl⟩⟩
  | removeNode id =>
    cases hn : s.node id with
    | ok n => exact Or.inl ⟨_, _, .removeNode n id (node_eq_ok_iff.1 hn)⟩
    | error e =>
      rw [step, removeNode, hn]
      exact Or.inr ⟨(spares_of_node hn).map _, rfl⟩
  | proposeEdge source target id =>
    cases ha : s.node source with
    | error e =>
      simp only [step, proposeEdge, ha]
      exact Or.inr ⟨(spares_of_node ha).map _, rfl⟩
    | ok a =>
      cases hb : s.node target with
      | error e =>
        simp only [step, proposeEdge, ha, hb]
        exact Or.inr ⟨(spares_of_node hb).map _, rfl⟩
      | ok b =>
        cases hcheck : checkConnection a b s.graph.edges with
        | some r =>
          -- a refusal is an answer and no failure
          simp only [step, proposeEdge, ha, hb, hcheck]
          exact Or.inr ⟨(spares_answer s _).map _, rfl⟩
        | none =>
          exact Or.inl ⟨_, _, .proposeEdge a b source target id (node_eq_ok_iff.1 ha)
            (node_eq_ok_iff.1 hb) hcheck⟩
  | removeEdge id =>
    by_cases hall : ∀ e ∈ s.graph.edges, e.id ≠ id
    · have hstep : s.step (.removeEdge id) = s.fail (.edgeNotFound id) := by
        simp only [step, removeEdge]
        rw [if_pos (length_filter_ne_iff.2 hall)]
        rfl
      rw [hstep]
      exact Or.inr ⟨spares_fail (by simp [Failure.category]), rfl⟩
    · push Not at hall
      obtain ⟨e, he, rfl⟩ := hall
      exact Or.inl ⟨_, _, .removeEdge e he⟩
  | _ => simp [Command.resyncs] at hc

/-- An operation that never brings runners up to date checks before it changes anything. -/
theorem spares_step (hclosed : s.graph.Closed) (hc : c.resyncs = false) :
    s.Spares c (s.step c) := by
  cases c with
  | setName name => exact (spares_answer _ ()).map _
  | setDescription description => exact (spares_answer _ ()).map _
  | addNode n => exact (spares_addNode n s.tokens).map _
  | addNodeOfKind k id position => exact (spares_addNode _ _).map _
  | toggleExpansion id => exact (spares_toggleExpansion id).map _
  | setField id field value => exact (spares_setField hclosed id field value).map _
  | setInputMessage id message => exact (spares_setInputMessage hclosed id message).map _
  | _ => simp [Command.resyncs] at hc

/-- **Operations that fail change nothing, and fail for a known reason.**  This holds of every store
in whose graph no id is repeated and every edge has its ends.  An operation that would bring runners
up to date either leaves the store alone or puts a document in place, and then the runners are
brought up to date without fail. -/
theorem step_atomic (hnodup : s.graph.nodeIds.Nodup) (hclosed : s.graph.Closed)
    (hload : ∀ d, c = .load d → d.graph.nodeIds.Nodup) :
    (∀ e, (s.step c).result = .error e →
      (s.step c).store.document = s.document ∧ e.Expected c) ∧
    (c.resyncs = true → (s.step c).store = s ∨ ∃ t reply, s.Replaces c t reply) ∧
    ∀ t reply, s.Replaces c t reply →
      ∃ g, t.graph.resync = .ok g ∧ s.step c = ⟨t.withGraph g, .ok reply⟩ := by
  have hreplaces : ∀ t reply, s.Replaces c t reply →
      ∃ g, t.graph.resync = .ok g ∧ s.step c = ⟨t.withGraph g, .ok reply⟩ := by
    intro t reply h
    obtain ⟨g, hg⟩ := h.exists_resync hnodup hclosed hload
    exact ⟨g, hg, h.step_eq.trans (resyncThen_of_eq_ok hg reply)⟩
  -- once a document is in place nothing fails any more, so every failure comes before
  refine ⟨?_, fun hc => ?_, hreplaces⟩
  · cases hc : c.resyncs with
    | false => exact spares_step hclosed hc
    | true =>
      rcases replaces_or_kept (s := s) hc with ⟨t, reply, h⟩ | ⟨hspares, -⟩
      · intro e he
        obtain ⟨g, -, hstep⟩ := hreplaces t reply h
        rw [hstep] at he
        simp at he
      · exact hspares
  · rcases replaces_or_kept (s := s) hc with h | ⟨-, hkept⟩
    · exact Or.inr h
    · exact Or.inl hkept

/-- Operations on the crossroads that fail, each for a reason of its own. -/
def mistakes : List Command :=
  [.load danglingDocument, .addNode ⟨"a", none, .input {}⟩, .removeNode "gone",
    .setField "a" "instructions" .null, .setField "r" "input" (.text "mine"),
    .setInputMessage "i" (.int 3), .proposeEdge "a" "gone" none, .removeEdge "gone"]

/-- All mistakes fail and change nothing, and removing an agent succeeds although it cuts the way of
a message. -/
theorem step_atomic_crossroads :
    crossroads.graph.nodeIds.Nodup ∧ crossroads.graph.Closed ∧
      danglingDocument.graph.nodeIds.Nodup ∧
      (∀ c ∈ mistakes, ∃ e, (crossroads.step c).result = .error e ∧
        (crossroads.step c).store.document = crossroads.document ∧ e.Expected c) ∧
      ∃ g, (crossroads.graph.without "a").resync = .ok g ∧
        crossroads.step (.removeNode "a") =
          ⟨(crossroads.withGraph (crossroads.graph.without "a")).withGraph g, .ok .done⟩ := by
  have hnodup : crossroads.graph.nodeIds.Nodup := by decide
  have hclosed : crossroads.graph.Closed := by unfold Graph.Closed; decide
  have hloaded : danglingDocument.graph.nodeIds.Nodup := by decide
  refine ⟨hnodup, hclosed, hloaded, fun c hc => ?_, ?_⟩
  · have hfails : ∃ e, (crossroads.step c).result = .error e := by
      revert c
      simp only [mistakes, List.forall_mem_cons]
      refine ⟨⟨_, rfl⟩, ⟨_, rfl⟩, ⟨_, rfl⟩, ⟨_, rfl⟩, ⟨_, rfl⟩, ⟨_, rfl⟩, ⟨_, rfl⟩, ⟨_, rfl⟩, ?_⟩
      exact fun c hc => absurd hc List.not_mem_nil
    have hload : ∀ d, c = .load d → d.graph.nodeIds.Nodup := by
      rintro d rfl
      obtain rfl : d = danglingDocument := by simpa [mistakes] using hc
      exact hloaded
    obtain ⟨e, he⟩ := hfails
    exact ⟨e, he, (step_atomic hnodup hclosed hload).1 e he⟩
  · have hload : ∀ d, Command.removeNode "a" = .load d → d.graph.nodeIds.Nodup := by simp
    exact (step_atomic hnodup hclosed hload).2.2 _ _ (.removeNode _ "a" rfl)

end Store
end AgentFlow

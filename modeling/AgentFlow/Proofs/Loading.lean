import AgentFlow.Proofs.Resync
import AgentFlow.Store.Basic

/-!
# Loading a document

Loading should be all or nothing.  It checks the edges of a document, puts the document in place,
and only then brings its runners up to date, which may fail.  Messages are collected from all inputs
but sent from the first node with the id of the input, and where an id is repeated that node can be
of another kind.  The document then stays, with its runners as they were, and what was there before
is lost.

## Main definitions

* `Graph.Hidden`, `Graph.firstHidden?`: an input whose id first belongs to a node of another kind.
* `Store.AllOrNothing`: loading a document replaces the old one by an up to date one, or leaves it.

## Main results

* `Graph.map_fst_inputMessages`: messages are collected by id, in the order of the inputs.
* `Graph.foldlM_propagate_append_cons`: propagating messages fails at the first id that is not an
  input's.
* `Graph.resync_of_firstHidden?`, `Graph.exists_resync_of_firstHidden?`: runners are brought up to
  date unless an input is hidden.
* `Store.load_allOrNothing_iff`: **loading is all or nothing unless an input is hidden.**
-/

namespace AgentFlow

theorem find?_eraseDups {α : Type} [DecidableEq α] (p : α → Bool) :
    ∀ l : List α, l.eraseDups.find? p = l.find? p
  | [] => rfl
  | a :: l => by
    rw [List.eraseDups_cons, List.find?_cons, List.find?_cons, find?_eraseDups p, List.find?_filter]
    cases ha : p a with
    | true => rfl
    | false =>
      -- the entries left out are like the first one, and that is not looked for
      have hsame : (fun b => decide ((!b == a) = true ∧ p b = true)) = p := by
        funext b
        by_cases hb : b = a
        · simp [hb, ha]
        · simp [hb]
      rw [hsame]
termination_by l => l.length
decreasing_by exact Nat.lt_succ_of_le (List.length_filter_le _ l)

namespace Graph

variable {g h : Graph} {id : NodeId} {m : String} {n : Node}

/-! ### Inputs that are hidden -/

/-- The node is an input, but the first node with its id is not. -/
def Hidden (g : Graph) (n : Node) : Prop :=
  n.kind = .input ∧ g.firstKind? n.id ≠ some .input

instance (g : Graph) (n : Node) : Decidable (g.Hidden n) :=
  inferInstanceAs (Decidable (_ ∧ _))

/-- The first input that is hidden. -/
def firstHidden? (g : Graph) : Option Node :=
  g.nodes.find? fun n => g.Hidden n

theorem firstHidden?_eq_none_iff : g.firstHidden? = none ↔ ∀ n ∈ g.nodes, ¬ g.Hidden n := by
  simp [firstHidden?]

theorem mem_and_hidden_of_firstHidden? (hn : g.firstHidden? = some n) :
    n ∈ g.nodes ∧ g.Hidden n :=
  ⟨List.mem_of_find?_eq_some hn, by simpa using List.find?_some hn⟩

/-! ### One message -/

/-- A message is not sent from a node of another kind. -/
theorem propagate_of_firstKind?_ne (hid : id ∈ g.nodeIds) (hkind : g.firstKind? id ≠ some .input)
    (m : String) : g.propagate id m = .error (.notInput id) := by
  obtain ⟨k, hk⟩ := exists_firstNode? hid
  have hne : k.kind ≠ .input := by simpa [firstKind?, hk] using hkind
  simp [propagate, requireNode, hk, hne, bind, Except.bind, Except.mapError, throw, throwThe,
    MonadExceptOf.throw]

/-! ### All messages -/

variable {messages : List (NodeId × String)}

/-- Messages are propagated one after the other as long as each is that of an input. -/
theorem exists_foldlM_propagate (hclosed : g.Closed)
    (hall : ∀ p ∈ messages, g.firstKind? p.1 = some .input) :
    ∃ k, messages.foldlM (fun k p => k.propagate p.1 p.2) g = .ok k ∧ SameShape g k := by
  refine ⟨_, (foldlM_propagate_eq_ok_iff (.refl g)).2 ⟨fun p hp => ?_, rfl⟩,
    sameShape_receivedAll g messages⟩
  exact sends_of_closed hclosed (hall p hp)

/-- Propagating messages fails at the first id that is not an input's. -/
theorem foldlM_propagate_append_cons (hclosed : g.Closed) {p : NodeId × String}
    {after : List (NodeId × String)} (hall : ∀ q ∈ messages, g.firstKind? q.1 = some .input)
    (hid : p.1 ∈ g.nodeIds) (hkind : g.firstKind? p.1 ≠ some .input) :
    (messages ++ p :: after).foldlM (fun k p => k.propagate p.1 p.2) g =
      .error (.notInput p.1) := by
  obtain ⟨k, hk, hshape⟩ := exists_foldlM_propagate hclosed hall
  have hfails : k.propagate p.1 p.2 = .error (.notInput p.1) :=
    propagate_of_firstKind?_ne (hshape.nodeIds_eq ▸ hid) (hshape.firstKind?_eq p.1 ▸ hkind) p.2
  rw [List.foldlM_append, hk]
  show (p :: after).foldlM (fun k p => k.propagate p.1 p.2) k = _
  rw [List.foldlM_cons, hfails]
  rfl

theorem map_fst_putMessage_of_mem (hid : id ∈ messages.map (·.1)) :
    (putMessage messages id m).map (·.1) = messages.map (·.1) := by
  induction messages with
  | nil => simp at hid
  | cons p messages ih =>
    obtain ⟨k, old⟩ := p
    rw [putMessage]
    by_cases hk : k = id
    · rw [if_pos hk, List.map_cons, List.map_cons]
    · have hrest : id ∈ messages.map (·.1) := (List.mem_cons.1 hid).resolve_left (Ne.symm hk)
      rw [if_neg hk, List.map_cons, List.map_cons, ih hrest]

/-- Messages are collected by id, in the order of the inputs.  An id that is repeated is listed
once, where it was first seen. -/
theorem map_fst_inputMessages (g : Graph) :
    g.inputMessages.map (·.1) = ((g.nodesOfKind .input).map (·.id)).eraseDups := by
  rw [inputMessages_eq_foldl, nodesOfKind]
  -- the fold notes nodes from the left, so the last one is split off
  induction g.nodes using List.reverseRecOn with
  | nil => rfl
  | append_singleton nodes n ih =>
    rw [List.foldl_append, List.foldl_cons, List.foldl_nil, List.filter_append, noteMessage]
    cases hm : n.payload.message? with
    | none =>
      have hkind : n.kind ≠ .input := fun hkind => by
        simpa [hm] using Payload.message?_isSome_iff.2 hkind
      rw [List.filter_cons_of_neg (by simpa using hkind), List.filter_nil, List.append_nil]
      exact ih
    | some m =>
      have hkind : n.kind = .input := Payload.message?_isSome_iff.1 (Option.isSome_of_mem hm)
      rw [List.filter_cons_of_pos (by simpa using hkind), List.filter_nil, Option.elim_some,
        List.map_append, List.map_singleton, List.eraseDups_append, ← ih]
      -- a message for an id that has one already takes its place
      by_cases hid : n.id ∈ (nodes.foldl noteMessage []).map (·.1)
      · have hold : n.id ∈ (nodes.filter (·.kind = .input)).map (·.id) := by
          rwa [ih, List.mem_eraseDups] at hid
        rw [map_fst_putMessage_of_mem hid]
        simp [List.removeAll, hold]
      · have hnew : n.id ∉ (nodes.filter (·.kind = .input)).map (·.id) := by
          rwa [ih, List.mem_eraseDups] at hid
        rw [putMessage_of_not_mem hid]
        simp [List.removeAll, hnew, List.eraseDups_cons]

/-- The first message that cannot be sent is that of the first hidden input. -/
theorem find?_inputMessages (g : Graph) :
    (g.inputMessages.find? fun p => g.firstKind? p.1 ≠ some .input).map (·.1) =
      g.firstHidden?.map (·.id) := by
  have hids : (g.inputMessages.map (·.1)).find? (fun id => g.firstKind? id ≠ some .input) =
      g.firstHidden?.map (·.id) := by
    rw [map_fst_inputMessages, find?_eraseDups, List.find?_map, nodesOfKind, List.find?_filter,
      firstHidden?]
    congr 2
    funext n
    exact decide_eq_decide.2 (by simp [Hidden])
  rw [← hids, List.find?_map]
  rfl

/-- Runners are not brought up to date if an input is hidden. -/
theorem resync_of_firstHidden? (hclosed : g.Closed) (hn : g.firstHidden? = some n) :
    g.resync = .error (.notInput n.id) := by
  have hfind := find?_inputMessages g
  rw [hn, Option.map_some, Option.map_eq_some_iff] at hfind
  obtain ⟨p, hp, hid⟩ := hfind
  obtain ⟨hkind, before, after, hsplit, hbefore⟩ := List.find?_eq_some_iff_append.1 hp
  rw [← hid, resync, hsplit]
  refine foldlM_propagate_append_cons hclosed (fun q hq => ?_) ?_ (by simpa using hkind)
  · simpa using hbefore q hq
  · rw [hid]
    exact id_mem_nodeIds (mem_and_hidden_of_firstHidden? hn).1

/-- Runners are brought up to date if no input is hidden. -/
theorem exists_resync_of_firstHidden? (hclosed : g.Closed) (hnone : g.firstHidden? = none) :
    ∃ k, g.resync = .ok k := by
  have hfind := find?_inputMessages g
  rw [hnone, Option.map_none, Option.map_eq_none_iff, List.find?_eq_none] at hfind
  have hall : ∀ p ∈ g.inputMessages, g.firstKind? p.1 = some .input := by simpa using hfind
  obtain ⟨k, hk, -⟩ := exists_foldlM_propagate hclosed hall
  exact ⟨k, hk⟩

end Graph

/-! ### Loading -/

namespace Store

variable {s : Store} {d : Document}

/-- Loading the document puts it in place with its runners up to date, or fails and leaves the store
as it was. -/
def AllOrNothing (s : Store) (d : Document) : Prop :=
  (∃ g, d.graph.resync = .ok g ∧ s.load d = ⟨{ s with document := d.withGraph g }, .ok ()⟩) ∨
    ∃ e, s.load d = ⟨s, .error e⟩

/-- A document with an edge that ends nowhere is not loaded. -/
theorem load_of_not_closed (hclosed : ¬ d.graph.Closed) :
    ∃ r, s.load d = ⟨s, .error (.unresolved r)⟩ := by
  cases hrefs : d.graph.checkReferences with
  | ok _ => exact absurd (Graph.checkReferences_eq_ok_iff.1 hrefs) hclosed
  | error r =>
    refine ⟨r, ?_⟩
    rw [load, hrefs]
    rfl

theorem load_of_closed (hclosed : d.graph.Closed) :
    s.load d = resyncThen { s with document := d } () := by
  rw [load, Graph.checkReferences_eq_ok_iff.2 hclosed]

/-- A document whose runners can be brought up to date is loaded. -/
theorem load_of_resync_eq_ok (hclosed : d.graph.Closed) {g : Graph}
    (hresync : d.graph.resync = .ok g) :
    s.load d = ⟨{ s with document := d.withGraph g }, .ok ()⟩ := by
  rw [load_of_closed hclosed, resyncThen, graph, hresync]
  rfl

/-- A document whose runners cannot be brought up to date is put in place all the same. -/
theorem load_of_resync_eq_error (hclosed : d.graph.Closed) {e : PropagationError}
    (hresync : d.graph.resync = .error e) :
    s.load d = ⟨{ s with document := d }, .error (.ofPropagation e)⟩ := by
  rw [load_of_closed hclosed, resyncThen, graph, hresync]
  rfl

/-- **Loading is all or nothing unless an input is hidden.**  This is about every store and every
document.  A document with an edge that ends nowhere is not loaded, and one in which the first node
with the id of an input is always an input is loaded with its runners up to date.  In all others the
operation fails at the first input that is hidden, and leaves behind the document that it could not
load. -/
theorem load_allOrNothing_iff (s : Store) (d : Document) :
    (s.AllOrNothing d ↔
        ¬ (d.graph.Closed ∧ (∃ n ∈ d.graph.nodes, d.graph.Hidden n) ∧ s.document ≠ d)) ∧
      (d.graph.Closed → ∀ n, d.graph.firstHidden? = some n →
        s.load d = ⟨{ s with document := d }, .error (.notInput n.id)⟩) := by
  have hfails : d.graph.Closed → ∀ n, d.graph.firstHidden? = some n →
      s.load d = ⟨{ s with document := d }, .error (.notInput n.id)⟩ := fun hclosed n hn =>
    load_of_resync_eq_error hclosed (Graph.resync_of_firstHidden? hclosed hn)
  refine ⟨⟨?_, fun hnot => ?_⟩, hfails⟩
  · rintro hload ⟨hclosed, ⟨m, hm, hhidden⟩, hne⟩
    cases hn : d.graph.firstHidden? with
    | none => exact Graph.firstHidden?_eq_none_iff.1 hn m hm hhidden
    | some n =>
      rcases hload with ⟨g, -, hload⟩ | ⟨e, hload⟩
      · exact absurd (congrArg Outcome.result ((hfails hclosed n hn).symm.trans hload)) (by simp)
      · -- the document of the store has changed although the operation failed
        have hstore := congrArg Outcome.store ((hfails hclosed n hn).symm.trans hload)
        exact hne (congrArg document hstore).symm
  · by_cases hclosed : d.graph.Closed
    · cases hn : d.graph.firstHidden? with
      | none =>
        obtain ⟨g, hg⟩ := Graph.exists_resync_of_firstHidden? hclosed hn
        exact Or.inl ⟨g, hg, load_of_resync_eq_ok hclosed hg⟩
      | some n =>
        have hsame : s.document = d := by
          by_contra hne
          exact hnot ⟨hclosed, ⟨n, Graph.mem_and_hidden_of_firstHidden? hn⟩, hne⟩
        refine Or.inr ⟨.notInput n.id, ?_⟩
        rw [hfails hclosed n hn, ← hsame]
    · obtain ⟨r, hr⟩ := load_of_not_closed (s := s) hclosed
      exact Or.inr ⟨.unresolved r, hr⟩

/-- An agent and an input with one id, the agent first. -/
def borrowedId : Document :=
  { graph := { nodes := [⟨"x", none, .agent {}⟩, ⟨"x", none, .input { message := "hi" }⟩] }
    name := "Loaded" }

/-- Loading can fail and still change the document: the input is hidden behind the agent. -/
theorem not_allOrNothing_borrowedId :
    let s : Store := { document := { graph := { nodes := [⟨"kept", none, .agent {}⟩] } } }
    ¬ s.AllOrNothing borrowedId ∧
      s.load borrowedId = ⟨{ document := borrowedId }, .error (.notInput "x")⟩ := by
  intro s
  have hload : s.load borrowedId = ⟨{ document := borrowedId }, .error (.notInput "x")⟩ := rfl
  refine ⟨?_, hload⟩
  rintro (⟨g, -, hdone⟩ | ⟨e, hkept⟩)
  · exact absurd (congrArg Outcome.result (hload.symm.trans hdone)) (by simp)
  · have hname : borrowedId.name = s.document.name :=
      congrArg (·.store.document.name) (hload.symm.trans hkept)
    exact absurd hname (by decide)

end Store
end AgentFlow

import AgentFlow.Proofs.Failing

/-!
# The ids of edges

An edge is removed by its id, so ids of edges should be different.  The store does not see to it.  A
caller who proposes an edge may choose its id, and the edge is drawn under that id even if another
edge has it; removing one of the two then removes both.  Nothing else repeats an id.

## Main definitions

* `Graph.edgeIds`: the ids of the edges.
* `Store.Reuses`: an edge is drawn under a chosen id that is in use.
* `Store.SuppliesNew`: an id that the store makes up is not in use.

## Main results

* `Graph.edges_refreshed`: bringing runners up to date leaves the edges alone.
* `Graph.Change.edges_eq`: where runners are not brought up to date, no edge has changed.
* `Store.edges_step_of_not_replaces`: only operations that put a document in place change edges.
* `Store.nodup_edgeIds_step_iff`: an operation keeps the ids different unless it reuses one.
* `Store.nodup_edgeIds_iff_removeEdge`: ids are different exactly if each removes one edge.
* `Store.nodup_edgeIds_run_iff`: **throughout a history ids are different exactly if none was
  reused.**
-/

namespace AgentFlow

/-! ### Edges and messages -/

namespace Graph

variable {g h : Graph}

/-- The ids of the edges, in order. -/
def edgeIds (g : Graph) : List EdgeId := g.edges.map (·.id)

/-- Propagating a message leaves the edges alone. -/
theorem edges_propagate {id : NodeId} {m : String} (hpropagate : g.propagate id m = .ok h) :
    h.edges = g.edges := by
  obtain ⟨-, rfl⟩ := propagate_eq_ok_iff.1 hpropagate
  rfl

/-- Bringing runners up to date leaves the edges alone, whether or not it succeeds. -/
theorem edges_refreshed (g : Graph) : g.refreshed.edges = g.edges := by
  unfold refreshed
  split
  · next h hresync =>
    obtain ⟨-, rfl⟩ := resync_eq_ok_iff.1 hresync
    rfl
  · rfl

/-- Where the runners are not brought up to date, no edge has changed. -/
theorem Change.edges_eq {c : Command} (hchange : Change c g h) (hc : c.resyncs = false) :
    h.edges = g.edges := by
  -- the changes that touch edges belong to the other operations
  have hother : c.resyncs ≠ true := by simp [hc]
  cases hchange with
  | keep => rfl
  | load d hload => exact absurd (by rw [hload]; rfl) hother
  | append n => rfl
  | remove id hresyncs => exact absurd hresyncs hother
  | edit n p => rfl
  | tell n m _ _ _ _ hpropagate => exact edges_propagate hpropagate
  | draw _ _ _ _ _ _ hresyncs => exact absurd hresyncs hother
  | erase p hresyncs => exact absurd hresyncs hother

end Graph

/-! ### Edges and operations -/

namespace Store

variable {s t : Store} {c : Command} {reply : Reply}

/-- Only operations that put a document in place change edges. -/
theorem edges_step_of_not_replaces (h : ¬ ∃ t reply, s.Replaces c t reply) :
    (s.step c).store.graph.edges = s.graph.edges := by
  cases hc : c.resyncs with
  | false => exact (s.step_change c).edges_eq hc
  | true =>
    obtain ⟨-, hkept⟩ := (replaces_or_kept (s := s) hc).resolve_left h
    rw [hkept]

/-- The edges of a document that was put in place stay as they are. -/
theorem Replaces.edges_step (h : s.Replaces c t reply) :
    (s.step c).store.graph.edges = t.graph.edges := by
  rw [h.step_eq, resyncThen_graph, Graph.edges_refreshed]

/-! ### Ids that are reused -/

/-- An edge is drawn under an id that the caller chose, and that an edge has already. -/
def Reuses (s : Store) (c : Command) : Prop :=
  ∃ source target id a b, c = .proposeEdge source target (some id) ∧ id ≠ "" ∧
    s.graph.firstNode? source = some a ∧ s.graph.firstNode? target = some b ∧
    checkConnection a b s.graph.edges = none ∧ id ∈ s.graph.edgeIds

/-- If the caller chooses no id for an edge, the id that is made up for it is not in use. -/
def SuppliesNew (s : Store) (c : Command) : Prop :=
  ∀ source target id, c = .proposeEdge source target id → id = none ∨ id = some "" →
    (edgeIdOr s.tokens source target id).1 ∉ s.graph.edgeIds

theorem Reuses.replaces (h : s.Reuses c) : ∃ t reply, s.Replaces c t reply := by
  obtain ⟨source, target, id, a, b, rfl, -, ha, hb, hcheck, -⟩ := h
  exact ⟨_, _, .proposeEdge a b source target (some id) ha hb hcheck⟩

theorem edgeIdOr_of_ne {tokens : Tokens} {source target : NodeId} {id : EdgeId} (hid : id ≠ "") :
    edgeIdOr tokens source target (some id) = (id, tokens) := by
  rw [edgeIdOr, if_neg hid]

/-- One more id leaves the ids different exactly if it is new. -/
theorem nodup_edgeIds_append_iff {edges : List Edge} (hedges : (edges.map (·.id)).Nodup)
    (e : Edge) : ((edges ++ [e]).map (·.id)).Nodup ↔ e.id ∉ edges.map (·.id) := by
  rw [List.map_append, List.map_singleton, ← List.concat_eq_append, List.nodup_concat]
  exact and_iff_left hedges

/-- An operation keeps the ids of the edges different unless it reuses one. -/
theorem nodup_edgeIds_step_iff (hs : s.graph.edgeIds.Nodup)
    (hload : ∀ d, c = .load d → d.graph.edgeIds.Nodup) (hnew : s.SuppliesNew c) :
    (s.step c).store.graph.edgeIds.Nodup ↔ ¬ s.Reuses c := by
  by_cases hreplaces : ∃ t reply, s.Replaces c t reply
  · obtain ⟨t, reply, h⟩ := hreplaces
    rw [Graph.edgeIds, h.edges_step]
    cases h with
    | load d hrefs => exact iff_of_true (hload d rfl) (by simp [Reuses])
    | removeNode n id hn =>
      exact iff_of_true (hs.sublist (List.filter_sublist.map _)) (by simp [Reuses])
    | removeEdge e he =>
      exact iff_of_true (hs.sublist (List.filter_sublist.map _)) (by simp [Reuses])
    | proposeEdge a b source target id ha hb hcheck =>
      refine (nodup_edgeIds_append_iff hs _).trans ?_
      by_cases hchosen : id = none ∨ id = some ""
      · -- the id is made up, so it is new and nothing is reused
        refine iff_of_true (hnew source target id rfl hchosen) ?_
        rintro ⟨_, _, x, _, _, hc, hx, -⟩
        obtain ⟨-, -, rfl⟩ := Command.proposeEdge.inj hc
        simp [hx] at hchosen
      · rw [not_or] at hchosen
        obtain ⟨x, rfl⟩ := Option.ne_none_iff_exists'.1 hchosen.1
        have hx : x ≠ "" := fun heq => hchosen.2 (congrArg some heq)
        rw [edgeIdOr_of_ne hx, not_iff_not]
        constructor
        · intro hmem
          exact ⟨source, target, x, a, b, rfl, hx, ha, hb, hcheck, hmem⟩
        · rintro ⟨_, _, _, _, _, hc, -, -, -, -, hmem⟩
          obtain ⟨-, -, hid⟩ := Command.proposeEdge.inj hc
          rw [Option.some.inj hid]
          exact hmem
  · rw [Graph.edgeIds, edges_step_of_not_replaces hreplaces]
    exact iff_of_true hs fun h => hreplaces h.replaces

/-! ### Removing an edge -/

/-- Removing by an id takes away all edges that have it, also where an id was supplied twice. -/
theorem edges_removeEdge (s : Store) (id : EdgeId) :
    (s.removeEdge id).store.graph.edges = s.graph.edges.filter (·.id ≠ id) := by
  by_cases hall : ∀ e ∈ s.graph.edges, e.id ≠ id
  · have hkept : s.removeEdge id = s.fail (.edgeNotFound id) := by
      simp only [removeEdge]
      rw [if_pos (length_filter_ne_iff.2 hall)]
    have hfilter : s.graph.edges.filter (·.id ≠ id) = s.graph.edges :=
      List.filter_eq_self.2 fun e he => by simpa using hall e he
    rw [hkept, hfilter]
    rfl
  · push Not at hall
    obtain ⟨e, he, rfl⟩ := hall
    rw [removeEdge_eq he, resyncThen_graph, Graph.edges_refreshed]
    rfl

/-- Ids of edges are different exactly if each of them removes one edge and no other. -/
theorem nodup_edgeIds_iff_removeEdge : s.graph.edgeIds.Nodup ↔ ∀ e ∈ s.graph.edges,
    (s.removeEdge e.id).store.graph.edges = s.graph.edges.erase e := by
  simp only [edges_removeEdge]
  constructor
  · intro hnodup e he
    rw [(List.Nodup.of_map _ hnodup).erase_eq_filter]
    refine List.filter_congr fun x hx => ?_
    by_cases heq : x = e
    · simp [heq]
    · have hne : x.id ≠ e.id := fun hid => heq (List.inj_on_of_nodup_map hnodup hx he hid)
      simp [heq, hne]
  · intro h
    rw [List.nodup_iff_count_le_one]
    intro id
    by_cases hid : id ∈ s.graph.edgeIds
    · obtain ⟨e, he, rfl⟩ := List.mem_map.1 hid
      -- the edges with the id are as many as are removed, and that is one
      have hremoved := congrArg List.length (h e he)
      rw [List.length_erase_of_mem he, ← List.countP_eq_length_filter] at hremoved
      have hsplit := List.length_eq_countP_add_countP (l := s.graph.edges) (·.id = e.id)
      have hcount : s.graph.edgeIds.count e.id = s.graph.edges.countP (·.id = e.id) := by
        rw [Graph.edgeIds, List.count, List.countP_map]
        rfl
      have hpos := List.length_pos_of_mem he
      simp only [ne_eq, decide_eq_true_eq, decide_not] at hremoved hsplit
      rw [hcount]
      omega
    · rw [List.count_eq_zero_of_not_mem hid]
      omega

/-! ### Histories -/

/-- **Throughout a history ids of edges are different exactly if none was reused.**  This is about
every history of a new workflow, as long as documents that are loaded do not repeat ids of edges and
ids that are made up are new.  Ids are different exactly if each of them removes one edge and no
other. -/
theorem nodup_edgeIds_run_iff (settings : Settings) {commands : List Command}
    (hload : ∀ d, Command.load d ∈ commands → d.graph.edgeIds.Nodup)
    (hnew : ∀ before c, before ++ [c] <+: commands →
      (run { document := settings.newDocument } before).SuppliesNew c) :
    let s : Store := { document := settings.newDocument }
    ((∀ before, before <+: commands → (s.run before).graph.edgeIds.Nodup) ↔
        ∀ before c, before ++ [c] <+: commands → ¬ (s.run before).Reuses c) ∧
      ∀ t : Store, t.graph.edgeIds.Nodup ↔ ∀ e ∈ t.graph.edges,
        (t.removeEdge e.id).store.graph.edges = t.graph.edges.erase e := by
  intro s
  refine ⟨?_, fun t => nodup_edgeIds_iff_removeEdge⟩
  refine forall_prefix_run_iff (P := fun t => t.graph.edgeIds.Nodup) List.nodup_nil ?_
  intro before c hbefore hnodup
  refine nodup_edgeIds_step_iff hnodup ?_ (hnew before c hbefore)
  rintro d rfl
  exact hload d (hbefore.subset (by simp))

/-- Three agents, two of them joined. -/
def trioDocument : Document :=
  { graph :=
    { nodes := [⟨"a", none, .agent {}⟩, ⟨"b", none, .agent {}⟩, ⟨"c", none, .agent {}⟩]
      edges := [⟨"e", "a", "b"⟩] } }

/-- A history in which one id is made up and another one is chosen a second time. -/
def twinHistory : List Command :=
  [.load trioDocument, .proposeEdge "b" "c" none, .proposeEdge "a" "c" (some "e")]

theorem nodup_of_load_mem_twinHistory (d : Document) (hd : Command.load d ∈ twinHistory) :
    d.graph.edgeIds.Nodup := by
  obtain rfl : d = trioDocument := by simpa [twinHistory] using hd
  decide

theorem suppliesNew_of_prefix_twinHistory (before : List Command) (c : Command)
    (hbefore : before ++ [c] <+: twinHistory) :
    (run { document := Settings.newDocument ⟨"INFO", [], "Chat", true⟩ } before).SuppliesNew c := by
  intro source target id hc hid
  match before, hbefore with
  | [], hbefore => simp [twinHistory, hc] at hbefore
  | [first], hbefore =>
    obtain ⟨rfl, rfl, rfl, rfl⟩ :
        first = .load trioDocument ∧ source = "b" ∧ target = "c" ∧ id = none := by
      simpa [twinHistory, hc, List.cons_prefix_cons] using hbefore
    decide +kernel
  | [_, _], hbefore =>
    obtain ⟨-, -, -, -, rfl⟩ : _ ∧ _ ∧ source = "a" ∧ target = "c" ∧ id = some "e" := by
      simpa [twinHistory, hc, List.cons_prefix_cons] using hbefore
    simp at hid
  | _ :: _ :: _ :: _, hbefore => simp [twinHistory, List.cons_prefix_cons] at hbefore

theorem edgeIds_run_twinHistory :
    (run { document := Settings.newDocument ⟨"INFO", [], "Chat", true⟩ }
      twinHistory).graph.edgeIds = ["e", "edge-b-c-00000001", "e"] := by
  decide +kernel

/-- In the history of twins some edge is drawn under an id that is in use. -/
theorem nodup_edgeIds_run_iff_twinHistory :
    let settings : Settings := ⟨"INFO", [], "Chat", true⟩
    let s : Store := { document := settings.newDocument }
    (∀ d, Command.load d ∈ twinHistory → d.graph.edgeIds.Nodup) ∧
      (∀ before c, before ++ [c] <+: twinHistory → (s.run before).SuppliesNew c) ∧
      ∃ before c, before ++ [c] <+: twinHistory ∧ (s.run before).Reuses c := by
  intro settings s
  have hload := nodup_of_load_mem_twinHistory
  have hnew := suppliesNew_of_prefix_twinHistory
  obtain ⟨hiff, -⟩ := nodup_edgeIds_run_iff settings hload hnew
  refine ⟨hload, hnew, ?_⟩
  by_contra hnone
  have hnodup := hiff.2 (fun before c hbefore hreuses => hnone ⟨before, c, hbefore, hreuses⟩)
    twinHistory (List.prefix_refl _)
  rw [edgeIds_run_twinHistory] at hnodup
  simp at hnodup

/-- Ids of edges can be repeated: the twins are reported, and taking one away takes both. -/
theorem not_nodup_edgeIds_run_twinHistory :
    let settings : Settings := ⟨"INFO", [], "Chat", true⟩
    let s : Store := { document := settings.newDocument }
    (∀ d, Command.load d ∈ twinHistory → d.graph.edgeIds.Nodup) ∧
      (∀ before c, before ++ [c] <+: twinHistory → (s.run before).SuppliesNew c) ∧
      ¬ (s.run twinHistory).graph.edgeIds.Nodup ∧
      (s.run twinHistory).graph.findings = [.duplicateEdge "e"] ∧
      ((s.run twinHistory).removeEdge "e").store.graph.edgeIds = ["edge-b-c-00000001"] := by
  intro settings s
  refine ⟨nodup_of_load_mem_twinHistory, suppliesNew_of_prefix_twinHistory, ?_, by decide +kernel,
    by decide +kernel⟩
  rw [edgeIds_run_twinHistory]
  simp

end Store
end AgentFlow

import AgentFlow.Program.Render
import AgentFlow.Proofs.Wiring

/-!
# Edges that end nowhere

An edge that ends nowhere is the only reason for a graph to have no program.  Ids may be repeated,
even by nodes of different kinds, edges may join kinds that do not fit, and agents may hand off to
each other in circles: the text is emitted all the same.

## Main definitions

* `Graph.Dangles`: an end of an edge is no node's id.
* `Graph.FirstDangling`: the complaint about the first edge that ends nowhere.
* `Graph.Complete`: a program was built, and nothing that it asks for was missing.

## Main results

* `Graph.links_eq_error_iff`: the complaint is about the first edge that ends nowhere.
* `Graph.exists_complete`: every closed graph has a program, whatever ids are repeated.
* `Graph.generate_fails_iff_dangling`: **there is no text exactly if some edge ends nowhere.**
-/

namespace AgentFlow
namespace Graph

variable {g : Graph} {e : Edge} {r : UnresolvedReference} {m : Metadata}

/-! ### The first edge that ends nowhere -/

/-- An end of the edge is no node's id. -/
def Dangles (g : Graph) (e : Edge) : Prop :=
  e.source ∉ g.nodeIds ∨ e.target ∉ g.nodeIds

instance (g : Graph) (e : Edge) : Decidable (g.Dangles e) :=
  inferInstanceAs (Decidable (_ ∨ _))

/-- The complaint is about the first edge that ends nowhere, and names the end that is missing.  If
both ends are, it names the source. -/
def FirstDangling (g : Graph) (r : UnresolvedReference) : Prop :=
  ∃ before e after, g.edges = before ++ e :: after ∧ (∀ x ∈ before, ¬ g.Dangles x) ∧
    r.edge = some e.id ∧
    (e.source ∉ g.nodeIds ∧ r.node = e.source ∨
      e.source ∈ g.nodeIds ∧ e.target ∉ g.nodeIds ∧ r.node = e.target)

theorem not_dangles_iff : ¬ g.Dangles e ↔ e.source ∈ g.nodeIds ∧ e.target ∈ g.nodeIds := by
  simp [Dangles]

theorem closed_iff_forall_not_dangles : g.Closed ↔ ∀ e ∈ g.edges, ¬ g.Dangles e :=
  forall₂_congr fun _ _ => not_dangles_iff.symm

theorem not_closed_iff : ¬ g.Closed ↔ ∃ e ∈ g.edges, g.Dangles e := by
  rw [closed_iff_forall_not_dangles]
  push Not
  rfl

/-- An edge has its link exactly if it does not end nowhere. -/
theorem exists_link_iff : (∃ l, g.link e = .ok l) ↔ ¬ g.Dangles e := by
  rw [not_dangles_iff]
  constructor
  · rintro ⟨l, hl⟩
    obtain ⟨-, hs, ht⟩ := link_eq_ok hl
    obtain ⟨hsmem, hsid⟩ := mem_and_id_of_node? hs
    obtain ⟨htmem, htid⟩ := mem_and_id_of_node? ht
    exact ⟨hsid ▸ id_mem_nodeIds hsmem, htid ▸ id_mem_nodeIds htmem⟩
  · rintro ⟨hsource, htarget⟩
    obtain ⟨s, hs⟩ := exists_node? hsource
    obtain ⟨t, ht⟩ := exists_node? htarget
    exact ⟨⟨e, s, t⟩, by rw [link, hs, ht]⟩

/-- An edge cannot be linked exactly if one of its ends is not a node.  The source is looked at
first, and is the one that is named if both are missing. -/
theorem link_eq_error_iff : g.link e = .error r ↔ r.edge = some e.id ∧
    (e.source ∉ g.nodeIds ∧ r.node = e.source ∨
      e.source ∈ g.nodeIds ∧ e.target ∉ g.nodeIds ∧ r.node = e.target) := by
  obtain ⟨node, edge⟩ := r
  by_cases hsource : e.source ∈ g.nodeIds
  · obtain ⟨s, hs⟩ := exists_node? hsource
    by_cases htarget : e.target ∈ g.nodeIds
    · obtain ⟨t, ht⟩ := exists_node? htarget
      simp [link, hs, ht, hsource, htarget]
    · have ht := node?_eq_none_iff.2 htarget
      simp [link, hs, ht, hsource, htarget, and_comm, eq_comm]
  · have hs := node?_eq_none_iff.2 hsource
    simp [link, hs, hsource, and_comm, eq_comm]

/-- A graph all of whose edges can be followed is closed. -/
theorem closed_of_links {links : List Link} (hlinks : g.links = .ok links) : g.Closed := by
  refine closed_iff_forall_not_dangles.2 fun e he => ?_
  obtain ⟨l, -, hl⟩ := exists_right_of_forall₂ (mapM_eq_ok_iff.1 hlinks) he
  exact exists_link_iff.1 ⟨l, hl⟩

/-- Following the edges fails at the first one that ends nowhere. -/
theorem links_eq_error_iff : g.links = .error r ↔ g.FirstDangling r := by
  rw [links, mapM_eq_error_iff]
  simp only [exists_link_iff, link_eq_error_iff]
  rfl

/-! ### Programs -/

/-- The program was built from the graph, and nothing that it asks for was missing. -/
structure Complete (g : Graph) (links : List Link) (p : Program) : Prop where
  /-- Every edge was followed to the nodes at its ends. -/
  followed : g.links = .ok links
  /-- Everything that a node defines has a name, and so has the class of every schema. -/
  names : ∀ n ∈ g.nodes, ∀ x ∈ n.needs, ∃ s, (Naming.ofGraph g).nameOf? x = some s
  /-- No agent was left out when the agents were put in order, and nothing else came in. -/
  order : ∀ id, id ∈ (Program.agentOrder g links).map (·.1) ↔
    id ∈ (g.nodesOfKind .agent).map (·.id)
  /-- Every definition was made with the names of the graph. -/
  built : Program.Built g links p

/-- The order of the agents is an order of the agents, also where ids are repeated. -/
theorem mem_ids_agentOrder_iff {links : List Link} {id : NodeId} :
    id ∈ (Program.agentOrder g links).map (·.1) ↔ id ∈ (g.nodesOfKind .agent).map (·.id) := by
  rw [Program.agentOrder, Wiring.mem_ids_arrange_iff, Program.map_fst_agentNodes]

/-- Every closed graph has a program, whatever ids are repeated. -/
theorem exists_complete (hclosed : g.Closed) (m : Metadata) :
    ∃ links p, g.Complete links p ∧ g.generate m = .ok p.render := by
  obtain ⟨links, hlinks⟩ := exists_links hclosed
  obtain ⟨p, hbuild, hb⟩ :=
    Program.exists_built_of_links hlinks (fun _ hx => Wiring.mem_of_mem_arrange hx) m
  refine ⟨links, p, ⟨hlinks, ?_, fun _ => mem_ids_agentOrder_iff, hb⟩, ?_⟩
  · intro n hn x hx
    exact Naming.exists_nameOf?_ofGraph hn hx
  · exact generate_of_build hbuild

theorem generate_of_links_eq_error (hlinks : g.links = .error r) (m : Metadata) :
    g.generate m = .error (.unresolved r) := by
  rw [generate, Program.build, hlinks]
  rfl

/-- There is no text exactly if an edge cannot be followed, and that is the complaint. -/
theorem generate_eq_error_iff {err : CompileError} :
    g.generate m = .error err ↔ ∃ r, err = .unresolved r ∧ g.FirstDangling r := by
  simp only [← links_eq_error_iff]
  constructor
  · intro h
    cases hlinks : g.links with
    | error r =>
      rw [generate_of_links_eq_error hlinks] at h
      exact ⟨r, (Except.error.inj h).symm, rfl⟩
    | ok links =>
      -- all edges were followed, so there is a text
      obtain ⟨_, p, -, hgenerate⟩ := exists_complete (closed_of_links hlinks) m
      rw [hgenerate] at h
      exact absurd h (by simp)
  · rintro ⟨r, rfl, hlinks⟩
    exact generate_of_links_eq_error hlinks m

theorem exists_firstDangling (h : ∃ e ∈ g.edges, g.Dangles e) : ∃ r, g.FirstDangling r := by
  cases hlinks : g.links with
  | error r => exact ⟨r, links_eq_error_iff.1 hlinks⟩
  | ok links => exact absurd (closed_of_links hlinks) (not_closed_iff.2 h)

theorem FirstDangling.exists_dangles (h : g.FirstDangling r) : ∃ e ∈ g.edges, g.Dangles e := by
  obtain ⟨before, e, after, hedges, -, -, hmissing⟩ := h
  refine ⟨e, hedges ▸ List.mem_append_right _ List.mem_cons_self, ?_⟩
  rcases hmissing with ⟨hsource, -⟩ | ⟨-, htarget, -⟩
  · exact Or.inl hsource
  · exact Or.inr htarget

/-- **There is no text exactly if some edge ends nowhere.**  The complaint is then about the first
such edge and the end that is missing.  In every other graph all edges are followed, all names are
found, the agents are put in order, and the text of the program is returned. -/
theorem generate_fails_iff_dangling (g : Graph) (m : Metadata) :
    ((∃ err, g.generate m = .error err) ↔ ∃ e ∈ g.edges, g.Dangles e) ∧
      (∀ err, g.generate m = .error err ↔ ∃ r, err = .unresolved r ∧ g.FirstDangling r) ∧
      ((∀ e ∈ g.edges, ¬ g.Dangles e) ↔
        ∃ links p, g.Complete links p ∧ g.generate m = .ok p.render) := by
  refine ⟨⟨?_, ?_⟩, fun err => generate_eq_error_iff, ⟨?_, ?_⟩⟩
  · rintro ⟨err, herr⟩
    obtain ⟨r, -, hr⟩ := generate_eq_error_iff.1 herr
    exact hr.exists_dangles
  · intro hdangles
    obtain ⟨r, hr⟩ := exists_firstDangling hdangles
    exact ⟨.unresolved r, generate_eq_error_iff.2 ⟨r, rfl, hr⟩⟩
  · intro hnone
    exact exists_complete (closed_iff_forall_not_dangles.2 hnone) m
  · rintro ⟨links, p, -, hgenerate⟩ e he hdangles
    obtain ⟨r, hr⟩ := exists_firstDangling ⟨e, he, hdangles⟩
    have herr := generate_eq_error_iff (m := m).2 ⟨r, rfl, hr⟩
    rw [hgenerate] at herr
    exact absurd herr (by simp)

end Graph
end AgentFlow

import AgentFlow.Program.Build
import AgentFlow.Proofs.Arrange
import AgentFlow.Proofs.Naming
import AgentFlow.Proofs.Shape

/-!
# Building a program succeeds

Where every edge has its ends, every definition finds the names it asks for, so there is a program.

## Main definitions

* `Graph.Needs`: something in a graph needs a name.
* `Program.Built`: how a program follows from a graph.

## Main results

* `Program.exists_built`: **a closed graph has a program.**
-/

namespace AgentFlow

variable {g : Graph} {links : List Link} {l : Link} {n : Node} {id : NodeId}

/-- The definitions that a node of a kind is made of, record classes apart. -/
def Kind.roles : Kind → List Role
  | .agent => [.agent]
  | .functionTool => [.tool]
  | .guardrail => [.checker, .guard]
  | .runner => []
  | .input => []

/-! ### Links -/

namespace Graph

/-- A link consists of the edge and of the nodes that are looked up for its two ends. -/
theorem link_eq_ok {e : Edge} (h : g.link e = .ok l) :
    l.edge = e ∧ g.node? e.source = some l.source ∧ g.node? e.target = some l.target := by
  unfold link at h
  split at h
  · simp at h
  · simp at h
  · next hs ht =>
    obtain rfl := Except.ok.inj h
    exact ⟨rfl, hs, ht⟩

theorem exists_links (hclosed : g.Closed) : ∃ links, g.links = .ok links := by
  refine exists_mapM_eq_ok fun e he => ?_
  obtain ⟨s, hs⟩ := exists_node? (hclosed e he).1
  obtain ⟨t, ht⟩ := exists_node? (hclosed e he).2
  exact ⟨⟨e, s, t⟩, by rw [link, hs, ht]⟩

/-- A link is an edge between two nodes. -/
theorem mem_of_mem_links (hlinks : g.links = .ok links) (hl : l ∈ links) :
    l.edge ∈ g.edges ∧ (l.source ∈ g.nodes ∧ l.source.id = l.edge.source) ∧
      l.target ∈ g.nodes ∧ l.target.id = l.edge.target := by
  obtain ⟨e, he, hlink⟩ := exists_left_of_forall₂ (mapM_eq_ok_iff.1 hlinks) hl
  obtain ⟨rfl, hs, ht⟩ := link_eq_ok hlink
  exact ⟨he, mem_and_id_of_node? hs, mem_and_id_of_node? ht⟩

/-- Something in the graph needs a name. -/
def Needs (g : Graph) (x : Role × String) : Prop :=
  ∃ n ∈ g.nodes, x ∈ n.needs

theorem Needs.exists_nameOf? {x : Role × String} (h : g.Needs x) :
    ∃ s, (Naming.ofGraph g).nameOf? x = some s := by
  obtain ⟨n, hn, hx⟩ := h
  exact Naming.exists_nameOf?_ofGraph hn hx

/-- A node needs names for what its kind is made of. -/
theorem needs_of_kind (hn : n ∈ g.nodes) {role : Role} (hrole : role ∈ n.kind.roles) :
    g.Needs (role, n.id) := by
  refine ⟨n, hn, ?_⟩
  unfold Node.kind at hrole
  unfold Node.needs
  cases hp : n.payload <;> rw [hp] at hrole <;> simp_all [Payload.kind, Kind.roles]
  exact hrole.imp_right Or.inl

end Graph

namespace Wiring

theorem mem_handoffs {t : NodeId} :
    t ∈ handoffs links id ↔ ∃ l ∈ links,
      (l.edge.source = id ∧ l.edge.target ≠ id ∧ l.target.kind = .agent) ∧ l.target.id = t := by
  simp [handoffs, List.mem_eraseDups, and_assoc]

theorem mem_sources {k : Kind} :
    n ∈ sources links id k ↔
      ∃ l ∈ links, (l.edge.target = id ∧ l.source.kind = k) ∧ l.source = n := by
  simp [sources, List.mem_eraseDups, and_assoc]

/-- The agent that a runner runs is the source of one of the links. -/
theorem mem_links_of_runnerAgent? {a : NodeId} (h : runnerAgent? links id = some a) :
    ∃ l ∈ links, l.source.kind = .agent ∧ l.source.id = a := by
  unfold runnerAgent? at h
  split at h
  · next l hl =>
    split at h
    · next hkind =>
      have hmem : l ∈ links.filter (·.edge.target = id) := hl ▸ List.mem_singleton.2 rfl
      exact ⟨l, (List.mem_filter.1 hmem).1, hkind, Option.some.inj h⟩
    · simp at h
  · simp at h

end Wiring

/-! ### Definitions -/

namespace Program

variable {names : Naming} {s : String}

theorem named_eq_ok_iff {o : Option String} : named id o = .ok s ↔ o = some s := by
  cases o <;> simp [named]

/-- What needs a name is given one. -/
theorem exists_named {role : Role} (h : g.Needs (role, id)) :
    ∃ s, named id ((Naming.ofGraph g).nameOf? (role, id)) = .ok s := by
  obtain ⟨s, hs⟩ := h.exists_nameOf?
  exact ⟨s, named_eq_ok_iff.2 hs⟩

/-- What the function of a tool is called. -/
theorem nameOf?_of_toolFunction {d : ToolData} {t : ToolFunction}
    (h : toolFunction names id d = .ok t) : names.nameOf? (.tool, id) = some t.name := by
  obtain ⟨s, hs, ht⟩ := bind_eq_ok_iff.1 h
  obtain rfl := Except.ok.inj ht
  exact named_eq_ok_iff.1 hs

/-- What the definitions of a guardrail are called, and how they hang together. -/
theorem nameOf?_of_guardrail {d : GuardrailData} {q : Checker × Guard}
    (h : guardrail names id d = .ok q) :
    names.nameOf? (.checker, id) = some q.1.name ∧ names.nameOf? (.guard, id) = some q.2.name ∧
      q.1.outputType = names.className? d.checkerSchema ∧ q.2.checker = q.1.name := by
  obtain ⟨c, hc, h⟩ := bind_eq_ok_iff.1 h
  obtain ⟨s, hs, hq⟩ := bind_eq_ok_iff.1 h
  obtain rfl := Except.ok.inj hq
  exact ⟨named_eq_ok_iff.1 hc, named_eq_ok_iff.1 hs, rfl, rfl⟩

theorem nameOf?_of_guardrailNames {side : GuardrailSide} {ss : List String}
    (h : guardrailNames names links id side = .ok ss) (hs : s ∈ ss) :
    ∃ n ∈ Wiring.sources links id .guardrail, names.nameOf? (.guard, n.id) = some s := by
  obtain ⟨n, hn, hname⟩ := exists_left_of_forall₂ (mapM_eq_ok_iff.1 h) hs
  exact ⟨n, (List.mem_filter.1 hn).1, named_eq_ok_iff.1 hname⟩

/-- What an agent is called, and the names of what it is given, one by one. -/
theorem forall₂_of_agentDefinition {d : AgentData} {a : AgentDefinition}
    (h : agentDefinition names links id d = .ok a) :
    names.nameOf? (.agent, id) = some a.name ∧
      List.Forall₂ (fun n s => names.nameOf? (.tool, n.id) = some s)
        (Wiring.sources links id .functionTool) a.tools ∧
      List.Forall₂ (fun t s => names.nameOf? (.agent, t) = some s)
        (Wiring.handoffs links id) a.handoffs ∧
      a.outputType = names.className? d.outputSchema ∧
      guardrailNames names links id .input = .ok a.inputGuardrails ∧
      guardrailNames names links id .output = .ok a.outputGuardrails := by
  -- the definition is put together step by step, and each step has succeeded
  obtain ⟨name, hname, h⟩ := bind_eq_ok_iff.1 h
  obtain ⟨tools, htools, h⟩ := bind_eq_ok_iff.1 h
  obtain ⟨handoffs, hhandoffs, h⟩ := bind_eq_ok_iff.1 h
  obtain ⟨ins, hins, h⟩ := bind_eq_ok_iff.1 h
  obtain ⟨outs, houts, ha⟩ := bind_eq_ok_iff.1 h
  obtain rfl := Except.ok.inj ha
  refine ⟨named_eq_ok_iff.1 hname, ?_, ?_, rfl, hins, houts⟩
  · exact (mapM_eq_ok_iff.1 htools).imp fun _ _ hs => named_eq_ok_iff.1 hs
  · exact (mapM_eq_ok_iff.1 hhandoffs).imp fun _ _ hs => named_eq_ok_iff.1 hs

/-- What an agent is called, and which names it refers to: those of the tools and guardrails that
lead to it, of the agents it hands off to, and of the class of its answers. -/
theorem nameOf?_of_agentDefinition {d : AgentData} {a : AgentDefinition}
    (h : agentDefinition names links id d = .ok a) :
    names.nameOf? (.agent, id) = some a.name ∧
      (∀ s ∈ a.tools, ∃ n ∈ Wiring.sources links id .functionTool,
        names.nameOf? (.tool, n.id) = some s) ∧
      (∀ s ∈ a.handoffs, ∃ t ∈ Wiring.handoffs links id, names.nameOf? (.agent, t) = some s) ∧
      a.outputType = names.className? d.outputSchema ∧
      (∀ s ∈ a.inputGuardrails ++ a.outputGuardrails, ∃ n ∈ Wiring.sources links id .guardrail,
        names.nameOf? (.guard, n.id) = some s) := by
  obtain ⟨hname, htools, hhandoffs, htype, hins, houts⟩ := forall₂_of_agentDefinition h
  refine ⟨hname, fun s hs => exists_left_of_forall₂ htools hs,
    fun s hs => exists_left_of_forall₂ hhandoffs hs, htype, fun s hs => ?_⟩
  rcases List.mem_append.1 hs with hs | hs
  · exact nameOf?_of_guardrailNames hins hs
  · exact nameOf?_of_guardrailNames houts hs

/-- A stanza with a call runs the agent that links join to the runner, by the name of this agent. -/
theorem nameOf?_of_stanza {d : RunnerData} {input : String} {context : Option String}
    {mode : ExecutionMode} (h : stanza names links id d = .ok (.call s input context mode)) :
    ∃ a, Wiring.runnerAgent? links id = some a ∧ names.nameOf? (.agent, a) = some s := by
  unfold stanza at h
  split at h
  · simp at h
  · next a ha =>
    obtain ⟨t, ht, hcall⟩ := bind_eq_ok_iff.1 h
    obtain ⟨rfl, -⟩ := Stanza.call.inj (Except.ok.inj hcall)
    exact ⟨a, ha, named_eq_ok_iff.1 ht⟩

/-! ### Every name that is asked for is there -/

theorem needs_of_mem_sources (hlinks : g.links = .ok links) {k : Kind}
    (hn : n ∈ Wiring.sources links id k) (role : Role) (hrole : role ∈ k.roles) :
    g.Needs (role, n.id) := by
  obtain ⟨l, hl, ⟨-, rfl⟩, rfl⟩ := Wiring.mem_sources.1 hn
  exact Graph.needs_of_kind (Graph.mem_of_mem_links hlinks hl).2.1.1 hrole

theorem needs_of_mem_handoffs (hlinks : g.links = .ok links) {t : NodeId}
    (ht : t ∈ Wiring.handoffs links id) : g.Needs (.agent, t) := by
  obtain ⟨l, hl, ⟨-, -, hkind⟩, rfl⟩ := Wiring.mem_handoffs.1 ht
  refine Graph.needs_of_kind (Graph.mem_of_mem_links hlinks hl).2.2.1 ?_
  rw [hkind]
  exact List.mem_cons_self

theorem needs_of_runnerAgent? (hlinks : g.links = .ok links) {a : NodeId}
    (ha : Wiring.runnerAgent? links id = some a) : g.Needs (.agent, a) := by
  obtain ⟨l, hl, hkind, rfl⟩ := Wiring.mem_links_of_runnerAgent? ha
  refine Graph.needs_of_kind (Graph.mem_of_mem_links hlinks hl).2.1.1 ?_
  rw [hkind]
  exact List.mem_cons_self

theorem exists_toolFunction (h : g.Needs (.tool, id)) (d : ToolData) :
    ∃ t, toolFunction (Naming.ofGraph g) id d = .ok t := by
  obtain ⟨s, hs⟩ := exists_named h
  exact ⟨_, bind_eq_ok_iff.2 ⟨s, hs, rfl⟩⟩

theorem exists_guardrail (hchecker : g.Needs (.checker, id)) (hguard : g.Needs (.guard, id))
    (d : GuardrailData) : ∃ q, guardrail (Naming.ofGraph g) id d = .ok q := by
  obtain ⟨c, hc⟩ := exists_named hchecker
  obtain ⟨s, hs⟩ := exists_named hguard
  exact ⟨_, bind_eq_ok_iff.2 ⟨c, hc, bind_eq_ok_iff.2 ⟨s, hs, rfl⟩⟩⟩

theorem exists_guardrailNames (hlinks : g.links = .ok links) (id : NodeId) (side : GuardrailSide) :
    ∃ ss, guardrailNames (Naming.ofGraph g) links id side = .ok ss := by
  refine exists_mapM_eq_ok fun n hn => ?_
  exact exists_named (needs_of_mem_sources hlinks (List.mem_filter.1 hn).1 .guard (by decide))

/-- An agent that has a name has a definition: everything that links join to it has a name as well,
so no lookup fails. -/
theorem exists_agentDefinition (hlinks : g.links = .ok links) (h : g.Needs (.agent, id))
    (d : AgentData) : ∃ a, agentDefinition (Naming.ofGraph g) links id d = .ok a := by
  obtain ⟨name, hname⟩ := exists_named h
  obtain ⟨tools, htools⟩ := exists_mapM_eq_ok
    fun n (hn : n ∈ Wiring.sources links id .functionTool) =>
    exists_named (needs_of_mem_sources hlinks hn .tool (by decide))
  obtain ⟨handoffs, hhandoffs⟩ := exists_mapM_eq_ok fun t (ht : t ∈ Wiring.handoffs links id) =>
    exists_named (needs_of_mem_handoffs hlinks ht)
  obtain ⟨ins, hins⟩ := exists_guardrailNames hlinks id .input
  obtain ⟨outs, houts⟩ := exists_guardrailNames hlinks id .output
  exact ⟨_, bind_eq_ok_iff.2 ⟨name, hname, bind_eq_ok_iff.2 ⟨tools, htools,
    bind_eq_ok_iff.2 ⟨handoffs, hhandoffs, bind_eq_ok_iff.2 ⟨ins, hins,
      bind_eq_ok_iff.2 ⟨outs, houts, rfl⟩⟩⟩⟩⟩⟩

theorem exists_stanza (hlinks : g.links = .ok links) (id : NodeId) (d : RunnerData) :
    ∃ s, stanza (Naming.ofGraph g) links id d = .ok s := by
  unfold stanza
  split
  · exact ⟨_, rfl⟩
  · next a ha =>
    obtain ⟨s, hs⟩ := exists_named (needs_of_runnerAgent? hlinks ha)
    exact ⟨_, bind_eq_ok_iff.2 ⟨s, hs, rfl⟩⟩

/-! ### Nodes by kind -/

section Selects

variable {δ : Type} {f : Node → Option (NodeId × δ)} {make : δ → Payload}

/-- The nodes that are selected are those with a payload of one kind.  Their ids and data are
kept. -/
def Selects (f : Node → Option (NodeId × δ)) (make : δ → Payload) : Prop :=
  ∀ n x, f n = some x ↔ n.id = x.1 ∧ n.payload = make x.2

theorem Selects.mem_iff (h : Selects f make) {nodes : List Node} {x : NodeId × δ} :
    x ∈ nodes.filterMap f ↔ ∃ n ∈ nodes, n.id = x.1 ∧ n.payload = make x.2 := by
  simp only [List.mem_filterMap, h _ x]

/-- The ids of the nodes that are selected are some of all ids. -/
theorem Selects.sublist (h : Selects f make) (nodes : List Node) :
    List.Sublist ((nodes.filterMap f).map (·.1)) (nodes.map (·.id)) := by
  induction nodes with
  | nil => exact .slnil
  | cons n nodes ih =>
    cases hfn : f n with
    | none =>
      rw [List.filterMap_cons_none hfn, List.map_cons]
      exact ih.cons _
    | some x =>
      rw [List.filterMap_cons_some hfn, List.map_cons, List.map_cons, ((h n x).1 hfn).1]
      exact ih.cons_cons _

/-- The nodes of the kind are selected one by one, in order. -/
theorem Selects.forall₂ (h : Selects f make) {k : Kind}
    (hkind : ∀ p : Payload, p.kind = k ↔ ∃ d, p = make d) (nodes : List Node) :
    List.Forall₂ (fun n x => n.id = x.1 ∧ n.payload = make x.2) (nodes.filter (·.kind = k))
      (nodes.filterMap f) := by
  induction nodes with
  | nil => exact .nil
  | cons n nodes ih =>
    -- `f` takes a node exactly if it has the kind, so either both lists have it or neither has
    cases hfn : f n with
    | none =>
      have hn : n.kind ≠ k := by
        intro hk
        obtain ⟨d, hd⟩ := (hkind n.payload).1 hk
        exact absurd (hfn.symm.trans ((h n (n.id, d)).2 ⟨rfl, hd⟩)) (by simp)
      rw [List.filterMap_cons_none hfn, List.filter_cons_of_neg (by simpa using hn)]
      exact ih
    | some x =>
      have hx := (h n x).1 hfn
      have hn : n.kind = k := (hkind n.payload).2 ⟨x.2, hx.2⟩
      rw [List.filterMap_cons_some hfn, List.filter_cons_of_pos (by simpa using hn)]
      exact .cons hx ih

/-- The ids of the nodes that are selected are those of the nodes of the kind, in order. -/
theorem Selects.map_fst (h : Selects f make) {k : Kind}
    (hkind : ∀ p : Payload, p.kind = k ↔ ∃ d, p = make d) (nodes : List Node) :
    (nodes.filterMap f).map (·.1) = (nodes.filter (·.kind = k)).map (·.id) := by
  rw [← List.forall₂_eq_eq_eq, List.forall₂_map_left_iff, List.forall₂_map_right_iff]
  exact (h.forall₂ hkind nodes).flip.imp fun _ _ hx => hx.1.symm

end Selects

theorem selects_tool : Selects (fun n =>
    match n.payload with
    | .functionTool d => some (n.id, d)
    | _ => none) .functionTool := by
  rintro ⟨id, position, payload⟩ x
  cases payload <;> simp [Prod.ext_iff]

theorem selects_guardrail : Selects (fun n =>
    match n.payload with
    | .guardrail d => some (n.id, d)
    | _ => none) .guardrail := by
  rintro ⟨id, position, payload⟩ x
  cases payload <;> simp [Prod.ext_iff]

theorem selects_agent : Selects (fun n =>
    match n.payload with
    | .agent d => some (n.id, d)
    | _ => none) .agent := by
  rintro ⟨id, position, payload⟩ x
  cases payload <;> simp [Prod.ext_iff]

/-- How a program follows from a graph: definition by definition, with the names of the graph. -/
structure Built (g : Graph) (links : List Link) (p : Program) : Prop where
  classes : p.classes = (Naming.ofGraph g).schemas.map recordClass
  tools : List.Forall₂ (fun x t => toolFunction (Naming.ofGraph g) x.1 x.2 = .ok t)
    (toolNodes g) p.tools
  guardrails : List.Forall₂ (fun x q => guardrail (Naming.ofGraph g) x.1 x.2 = .ok q)
    (guardrailNodes g) p.guardrails
  agents : List.Forall₂ (fun x a => agentDefinition (Naming.ofGraph g) links x.1 x.2 = .ok a)
    (agentOrder g links) p.agents
  stanzas : List.Forall₂ (fun x s => stanza (Naming.ofGraph g) links x.1 x.2 = .ok s)
    (runnerNodes g) p.stanzas

/-- A program that was built follows from its graph, part by part.  Later results use this and do
not look at how the parts are put together. -/
theorem exists_built_of_build {m : Metadata} {p : Program} (h : build g m = .ok p) :
    ∃ links, g.links = .ok links ∧ Built g links p := by
  obtain ⟨links, hlinks, h⟩ := bind_eq_ok_iff.1 h
  obtain ⟨tools, htools, h⟩ := bind_eq_ok_iff.1 h
  obtain ⟨guardrails, hguardrails, h⟩ := bind_eq_ok_iff.1 h
  obtain ⟨agents, hagents, h⟩ := bind_eq_ok_iff.1 h
  obtain ⟨stanzas, hstanzas, hp⟩ := bind_eq_ok_iff.1 h
  obtain rfl := Except.ok.inj hp
  exact ⟨links, mapError_eq_ok_iff.1 hlinks, rfl, mapM_eq_ok_iff.1 htools,
    mapM_eq_ok_iff.1 hguardrails, mapM_eq_ok_iff.1 hagents, mapM_eq_ok_iff.1 hstanzas⟩

theorem needs_of_mem_toolNodes {x : NodeId × ToolData} (hx : x ∈ toolNodes g) :
    g.Needs (.tool, x.1) := by
  obtain ⟨n, hn, hid, hpayload⟩ := selects_tool.mem_iff.1 hx
  exact ⟨n, hn, by simp [Node.needs, hpayload, hid]⟩

theorem needs_of_mem_guardrailNodes {x : NodeId × GuardrailData} (hx : x ∈ guardrailNodes g) :
    g.Needs (.checker, x.1) ∧ g.Needs (.guard, x.1) ∧
      ∀ y ∈ StructuredSchema.needs x.2.checkerSchema, g.Needs y := by
  obtain ⟨n, hn, hid, hpayload⟩ := selects_guardrail.mem_iff.1 hx
  have hneeds : n.needs = (.checker, x.1) :: (.guard, x.1) ::
      StructuredSchema.needs x.2.checkerSchema := by
    rw [Node.needs, hpayload, hid]
  exact ⟨⟨n, hn, by simp [hneeds]⟩, ⟨n, hn, by simp [hneeds]⟩,
    fun y hy => ⟨n, hn, by simp [hneeds, hy]⟩⟩

theorem needs_of_mem_agentNodes {x : NodeId × AgentData} (hx : x ∈ agentNodes g) :
    g.Needs (.agent, x.1) ∧ ∀ y ∈ StructuredSchema.needs x.2.outputSchema, g.Needs y := by
  obtain ⟨n, hn, hid, hpayload⟩ := selects_agent.mem_iff.1 hx
  have hneeds : n.needs = (.agent, x.1) :: StructuredSchema.needs x.2.outputSchema := by
    rw [Node.needs, hpayload, hid]
  exact ⟨⟨n, hn, by simp [hneeds]⟩, fun y hy => ⟨n, hn, by simp [hneeds, hy]⟩⟩

theorem agentOrder_perm (hnodup : g.nodeIds.Nodup) (links : List Link) :
    (agentOrder g links).Perm (agentNodes g) :=
  Wiring.arrange_perm (hnodup.sublist (selects_agent.sublist g.nodes))

/-- Where every edge has its link and only agents are put in order, there is a program. -/
theorem exists_built_of_links (hlinks : g.links = .ok links)
    (horder : ∀ x ∈ agentOrder g links, x ∈ agentNodes g) (m : Metadata) :
    ∃ p, build g m = .ok p ∧ Built g links p := by
  obtain ⟨tools, htools⟩ := exists_mapM_eq_ok fun x (hx : x ∈ toolNodes g) =>
    exists_toolFunction (needs_of_mem_toolNodes hx) x.2
  obtain ⟨guardrails, hguardrails⟩ := exists_mapM_eq_ok fun x (hx : x ∈ guardrailNodes g) =>
    exists_guardrail (needs_of_mem_guardrailNodes hx).1 (needs_of_mem_guardrailNodes hx).2.1 x.2
  obtain ⟨agents, hagents⟩ := exists_mapM_eq_ok fun x (hx : x ∈ agentOrder g links) =>
    exists_agentDefinition hlinks (needs_of_mem_agentNodes (horder x hx)).1 x.2
  obtain ⟨stanzas, hstanzas⟩ := exists_mapM_eq_ok fun x (_ : x ∈ runnerNodes g) =>
    exists_stanza hlinks x.1 x.2
  have hbuild : build g m = .ok ⟨m, (Naming.ofGraph g).schemas.map recordClass, tools, guardrails,
      agents, stanzas, g.nodes.length, g.edges.length⟩ :=
    bind_eq_ok_iff.2 ⟨links, mapError_eq_ok_iff.2 hlinks, bind_eq_ok_iff.2 ⟨tools, htools,
      bind_eq_ok_iff.2 ⟨guardrails, hguardrails, bind_eq_ok_iff.2 ⟨agents, hagents,
        bind_eq_ok_iff.2 ⟨stanzas, hstanzas, rfl⟩⟩⟩⟩⟩
  exact ⟨_, hbuild, rfl, mapM_eq_ok_iff.1 htools, mapM_eq_ok_iff.1 hguardrails,
    mapM_eq_ok_iff.1 hagents, mapM_eq_ok_iff.1 hstanzas⟩

/-- **A closed graph has a program.** -/
theorem exists_built (hclosed : g.Closed) (hnodup : g.nodeIds.Nodup) (m : Metadata) :
    ∃ links p, g.links = .ok links ∧ build g m = .ok p ∧ Built g links p := by
  obtain ⟨links, hlinks⟩ := Graph.exists_links hclosed
  obtain ⟨p, hbuild, hb⟩ := exists_built_of_links hlinks
    (fun _ hx => (agentOrder_perm hnodup links).mem_iff.1 hx) m
  exact ⟨links, p, hlinks, hbuild, hb⟩

end Program
end AgentFlow

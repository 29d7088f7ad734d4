import AgentFlow.Proofs.Resolution

/-!
# The wiring of agents in a program

The lists in the text of an agent name the nodes that edges join to it, and no others.  Each is
named once, in the order of the first edge that mentions it, whatever edges stand in between.

## Main definitions

* `Graph.Collects`: ids that edges mention, in the order of the first mention.
* `Graph.Brings`, `Graph.HandsTo`: edges that mention what an agent is given.
* `Graph.Wires`, `Graph.WiredAs`: a call, and a block of text, says how an agent is joined to the
  others.

## Main results

* `pairwise_eraseDups_map`: without repetitions, entries stand in the order of first mention.
* `Graph.collects_of_links`: what is read off the links of a graph is what its edges mention.
* `Graph.generate_wiring`: **the text of a program says exactly how agents are wired.**
-/

namespace AgentFlow

/-- Without repetitions, entries stand in the order of first mention: before an entry comes up for
the first time, all entries in front of it have come up. -/
theorem pairwise_eraseDups_map {α β : Type} [DecidableEq β] (p : α → Bool) (f : α → β)
    (l : List α) :
    ((l.filter p).map f).eraseDups.Pairwise fun x y => ∃ before a after,
      l = before ++ a :: after ∧ p a = true ∧ f a = x ∧ ∀ b ∈ before, p b = true → f b ≠ y := by
  induction l using List.reverseRecOn with
  | nil => simp
  | append_singleton l a ih =>
    have hold : ((l.filter p).map f).eraseDups.Pairwise fun x y => ∃ before c after,
        l ++ [a] = before ++ c :: after ∧ p c = true ∧ f c = x ∧
          ∀ b ∈ before, p b = true → f b ≠ y := by
      refine ih.imp ?_
      rintro x y ⟨before, c, after, rfl, hc⟩
      exact ⟨before, c, after ++ [a], by simp, hc⟩
    rw [List.filter_append, List.map_append, List.eraseDups_append]
    -- the last entry brings one new value at most, and that was not mentioned before
    have hlast : ∀ y ∈ (((([a].filter p).map f).removeAll ((l.filter p).map f))).eraseDups,
        y = f a ∧ y ∉ (l.filter p).map f := by
      intro y hy
      rw [List.mem_eraseDups, List.removeAll, List.mem_filter] at hy
      obtain ⟨hy, hnew⟩ := hy
      obtain ⟨c, hc, rfl⟩ := List.mem_map.1 hy
      obtain rfl := List.mem_singleton.1 (List.mem_filter.1 hc).1
      exact ⟨rfl, by simpa using hnew⟩
    refine List.pairwise_append.2 ⟨hold, ?_, ?_⟩
    · have hnodup := nodup_eraseDups ((([a].filter p).map f).removeAll ((l.filter p).map f))
      refine hnodup.imp_of_mem fun hx hy hne => absurd ?_ hne
      rw [(hlast _ hx).1, (hlast _ hy).1]
    · intro x hx y hy
      rw [List.mem_eraseDups, List.mem_map] at hx
      obtain ⟨c, hc, rfl⟩ := hx
      obtain ⟨hc, hpc⟩ := List.mem_filter.1 hc
      obtain ⟨before, after, rfl⟩ := List.append_of_mem hc
      refine ⟨before, c, after ++ [a], by simp, hpc, rfl, fun b hb hpb hfb => ?_⟩
      have hmem : b ∈ (before ++ c :: after).filter p :=
        List.mem_filter.2 ⟨List.mem_append_left _ hb, hpb⟩
      exact (hlast y hy).2 (hfb ▸ List.mem_map_of_mem hmem)

namespace Graph

variable {g : Graph} {links : List Link} {n : NodeId}

/-! ### What edges mention -/

/-- The ids that edges mention, each once and in the order of the first edge that mentions it. -/
structure Collects (g : Graph) (Mentions : Edge → NodeId → Prop) (ids : List NodeId) : Prop where
  nodup : ids.Nodup
  mem_iff : ∀ id, id ∈ ids ↔ ∃ e ∈ g.edges, Mentions e id
  ordered : ids.Pairwise fun x y => ∃ before e after,
    g.edges = before ++ e :: after ∧ Mentions e x ∧ ∀ e' ∈ before, ¬ Mentions e' y

/-- The edge leads from a node with a property into a node. -/
def Brings (g : Graph) (P : Node → Prop) (n : NodeId) (e : Edge) (id : NodeId) : Prop :=
  e.target = n ∧ e.source = id ∧ ∃ m ∈ g.nodes, m.id = id ∧ P m

/-- The edge leads from a node to another one, which is an agent. -/
def HandsTo (g : Graph) (n : NodeId) (e : Edge) (id : NodeId) : Prop :=
  e.source = n ∧ e.target = id ∧ id ≠ n ∧ ∃ m ∈ g.nodes, m.id = id ∧ m.kind = .agent

theorem map_edge_links (hlinks : g.links = .ok links) : links.map (·.edge) = g.edges := by
  have hall : List.Forall₂ (fun e l => e = l.edge) g.edges links :=
    (mapM_eq_ok_iff.1 hlinks).imp fun e l hl => (link_eq_ok hl).1.symm
  rw [← List.forall₂_map_right_iff (R := Eq) (f := Link.edge), List.forall₂_eq_eq_eq] at hall
  exact hall.symm

/-- What is read off the links of a graph is what its edges mention. -/
theorem collects_of_links {β : Type} [DecidableEq β] {Mentions : Edge → NodeId → Prop}
    {p : Link → Bool} {f : Link → β} (q : β → Bool) (key : β → NodeId)
    (hlinks : g.links = .ok links)
    (hmentions : ∀ l ∈ links, ∀ id,
      Mentions l.edge id ↔ p l = true ∧ q (f l) = true ∧ key (f l) = id)
    (hkey : ∀ l ∈ links, ∀ l' ∈ links, key (f l) = key (f l') → f l = f l') :
    g.Collects Mentions ((((links.filter p).map f).eraseDups.filter q).map key) := by
  have hedges := map_edge_links hlinks
  -- repetitions are dropped before the entries become ids, but ids tell the entries apart
  have hmem : ∀ b, b ∈ ((links.filter p).map f).eraseDups.filter q ↔
      ∃ l ∈ links, p l = true ∧ q (f l) = true ∧ f l = b := by
    intro b
    simp only [List.mem_filter, List.mem_eraseDups, List.mem_map]
    constructor
    · rintro ⟨⟨l, ⟨hl, hp⟩, rfl⟩, hq⟩
      exact ⟨l, hl, hp, hq, rfl⟩
    · rintro ⟨l, hl, hp, hq, rfl⟩
      exact ⟨⟨l, ⟨hl, hp⟩, rfl⟩, hq⟩
  refine ⟨?_, ?_, ?_⟩
  · refine ((nodup_eraseDups _).filter q).map_on ?_
    intro b hb c hc
    obtain ⟨l, hl, -, -, rfl⟩ := (hmem b).1 hb
    obtain ⟨l', hl', -, -, rfl⟩ := (hmem c).1 hc
    exact hkey l hl l' hl'
  · intro id
    rw [← hedges, List.mem_map]
    constructor
    · rintro ⟨b, hb, rfl⟩
      obtain ⟨l, hl, hp, hq, rfl⟩ := (hmem b).1 hb
      exact ⟨l.edge, List.mem_map_of_mem hl, (hmentions l hl _).2 ⟨hp, hq, rfl⟩⟩
    · rintro ⟨e, he, hid⟩
      obtain ⟨l, hl, rfl⟩ := List.mem_map.1 he
      obtain ⟨hp, hq, rfl⟩ := (hmentions l hl id).1 hid
      exact ⟨f l, (hmem _).2 ⟨l, hl, hp, hq, rfl⟩, rfl⟩
  · rw [List.pairwise_map]
    refine ((pairwise_eraseDups_map p f links).filter q).imp_of_mem ?_
    rintro b c hb hc ⟨before, l, after, hsplit, hp, rfl, hnone⟩
    have hq : q (f l) = true := (List.mem_filter.1 hb).2
    obtain ⟨k, hk, -, -, rfl⟩ := (hmem c).1 hc
    have hl : l ∈ links := by simp [hsplit]
    refine ⟨before.map (·.edge), l.edge, after.map (·.edge), ?_, ?_, ?_⟩
    · rw [← hedges, hsplit, List.map_append, List.map_cons]
    · exact (hmentions l hl _).2 ⟨hp, hq, rfl⟩
    · intro e he hmention
      obtain ⟨l', hl', rfl⟩ := List.mem_map.1 he
      have hmem' : l' ∈ links := by
        rw [hsplit]
        exact List.mem_append_left _ hl'
      -- an earlier mention would have come from the same entry
      obtain ⟨hp', -, hsame⟩ := (hmentions l' hmem' _).1 hmention
      exact hnone l' hl' hp' (hkey l' hmem' k hk hsame)

/-! ### What agents are given -/

/-- The nodes with an edge into a node, as far as they have a property. -/
theorem collects_sources (hlinks : g.links = .ok links) (hnodup : g.nodeIds.Nodup) {k : Kind}
    {q : Node → Bool} {P : Node → Prop} (hP : ∀ m, P m ↔ m.kind = k ∧ q m = true) :
    g.Collects (g.Brings P n) (((Wiring.sources links n k).filter q).map (·.id)) := by
  refine collects_of_links q (·.id) hlinks ?_ ?_
  · intro l hl id
    obtain ⟨-, ⟨hsource, hid⟩, -⟩ := mem_of_mem_links hlinks hl
    simp only [decide_eq_true_eq]
    constructor
    · rintro ⟨htarget, rfl, m, hm, hmid, hPm⟩
      obtain rfl := eq_of_id_eq hnodup hm hsource (hmid.trans hid.symm)
      obtain ⟨hkind, hq⟩ := (hP _).1 hPm
      exact ⟨⟨htarget, hkind⟩, hq, hmid⟩
    · rintro ⟨⟨htarget, hkind⟩, hq, rfl⟩
      exact ⟨htarget, hid.symm, l.source, hsource, rfl, (hP _).2 ⟨hkind, hq⟩⟩
  · intro l hl l' hl'
    exact eq_of_id_eq hnodup (mem_of_mem_links hlinks hl).2.1.1 (mem_of_mem_links hlinks hl').2.1.1

/-- The agents that an agent hands off to, by the edges from it to other agents.  An edge from an
agent to itself is no handoff. -/
theorem collects_handoffs (hlinks : g.links = .ok links) (hnodup : g.nodeIds.Nodup) :
    g.Collects (g.HandsTo n) (Wiring.handoffs links n) := by
  have hall : Wiring.handoffs links n =
      ((Wiring.handoffs links n).filter fun _ => true).map id := by
    simp
  rw [hall]
  refine collects_of_links (fun _ => true) id hlinks ?_ fun _ _ _ _ heq => heq
  intro l hl x
  obtain ⟨-, -, htarget, hid⟩ := mem_of_mem_links hlinks hl
  simp only [decide_eq_true_eq, true_and, id_eq]
  constructor
  · rintro ⟨hsource, rfl, hne, m, hm, hmid, hkind⟩
    obtain rfl := eq_of_id_eq hnodup hm htarget (hmid.trans hid.symm)
    exact ⟨⟨hsource, hne, hkind⟩, hmid⟩
  · rintro ⟨⟨hsource, hne, hkind⟩, rfl⟩
    exact ⟨hsource, hid.symm, hid ▸ hne, l.target, htarget, rfl, hkind⟩

/-- The names stand for the ids that edges mention, one by one. -/
def Names (g : Graph) (role : Role) (Mentions : Edge → NodeId → Prop) (names : List String) :
    Prop :=
  ∃ ids, g.Collects Mentions ids ∧
    List.Forall₂ (fun id s => (Naming.ofGraph g).nameOf? (role, id) = some s) ids names

/-- The node is a guardrail of a side. -/
def IsGuardrail (side : GuardrailSide) (m : Node) : Prop :=
  ∃ d, m.payload = .guardrail d ∧ d.side = side

/-- The call lists under the argument the names of the ids that edges mention. -/
def Lists (g : Graph) (c : Block.AgentCall) (argument : String) (role : Role)
    (Mentions : Edge → NodeId → Prop) : Prop :=
  ∃ names, c.listed? argument = some names ∧ g.Names role Mentions names

/-- The call makes the agent of a node, and its lists say how the agent is joined to tools, other
agents and guardrails. -/
structure Wires (g : Graph) (n : NodeId) (c : Block.AgentCall) : Prop where
  named : (Naming.ofGraph g).nameOf? (.agent, n) = some c.name
  /-- No argument is given twice, so that what is read is what counts. -/
  nodup : (c.arguments.map (·.1)).Nodup
  tools : g.Lists c "tools" .tool (g.Brings (·.kind = .functionTool) n)
  handoffs : g.Lists c "handoffs" .agent (g.HandsTo n)
  inputGuardrails : g.Lists c "input_guardrails" .guard (g.Brings (IsGuardrail .input) n)
  outputGuardrails : g.Lists c "output_guardrails" .guard (g.Brings (IsGuardrail .output) n)

/-- The block is the call that makes the agent of a node, wired as the node is, and nothing else. -/
def WiredAs (g : Graph) (n : NodeId) (b : Block) : Prop := ∃ c, b.agent? = some c ∧ g.Wires n c

/-- A title above the text of an agent is not read. -/
theorem WiredAs.cons {b : Block} (h : g.WiredAs n b) {title : String}
    (htitle : Block.IsRemark title) : g.WiredAs n (title :: b) := by
  obtain ⟨c, hc, hwires⟩ := h
  exact ⟨c, (Block.agent?_append_of_isRemark (List.forall_mem_singleton.2 htitle) b).trans hc,
    hwires⟩

end Graph

/-! ### The program -/

namespace Program

variable {g : Graph} {links : List Link} {p : Program} {id : NodeId} {names : Naming}

/-- The node is a guardrail of a side, as it is decided when names are collected. -/
theorem forall₂_of_guardrailNames {side : GuardrailSide} {ss : List String}
    (h : guardrailNames names links id side = .ok ss) : ∃ q : Node → Bool,
      (∀ m, Graph.IsGuardrail side m ↔ m.kind = .guardrail ∧ q m = true) ∧
      List.Forall₂ (fun m s => names.nameOf? (.guard, m.id) = some s)
        ((Wiring.sources links id .guardrail).filter q) ss := by
  refine ⟨_, ?_, (mapM_eq_ok_iff.1 h).imp fun _ _ hs => named_eq_ok_iff.1 hs⟩
  rintro ⟨i, position, payload⟩
  cases payload <;> simp [Graph.IsGuardrail, Node.kind, Payload.kind]

/-- The names of the guardrails of one side stand for what edges bring. -/
theorem names_of_guardrailNames (hlinks : g.links = .ok links) (hnodup : g.nodeIds.Nodup)
    {side : GuardrailSide} {ss : List String}
    (h : guardrailNames (Naming.ofGraph g) links id side = .ok ss) :
    g.Names .guard (g.Brings (Graph.IsGuardrail side) id) ss := by
  obtain ⟨q, hq, hss⟩ := forall₂_of_guardrailNames h
  exact ⟨_, Graph.collects_sources hlinks hnodup hq, List.forall₂_map_left_iff.2 hss⟩

/-- An argument that is left out if there is nothing to list is read as a list with nothing in
it. -/
theorem listed?_of_lookup {c : Block.AgentCall} {argument : String} {ss : List String}
    (h : c.arguments.lookup argument = if ss.isEmpty then none else some (.names ss)) :
    c.listed? argument = some ss := by
  rw [Block.AgentCall.listed?, h]
  cases ss <;> rfl

/-- The call that an agent is made by says how the agent is wired. -/
theorem wires_of_agentDefinition (hlinks : g.links = .ok links) (hnodup : g.nodeIds.Nodup)
    {d : AgentData} {a : AgentDefinition}
    (h : agentDefinition (Naming.ofGraph g) links id d = .ok a) :
    g.Wires id ⟨a.name, Block.agentArguments a⟩ := by
  obtain ⟨hname, htools, hhandoffs, -, hins, houts⟩ := forall₂_of_agentDefinition h
  obtain ⟨hreadTools, hreadHandoffs, -, hreadIns, hreadOuts⟩ := Block.lookup_agentArguments a
  refine ⟨hname, Block.nodup_agentArguments a, ⟨a.tools, ?_, ?_⟩, ⟨a.handoffs, ?_, ?_⟩,
    ⟨a.inputGuardrails, listed?_of_lookup hreadIns, names_of_guardrailNames hlinks hnodup hins⟩,
    ⟨a.outputGuardrails, listed?_of_lookup hreadOuts, names_of_guardrailNames hlinks hnodup houts⟩⟩
  · rw [Block.AgentCall.listed?, hreadTools]
  · have hall : (Wiring.sources links id .functionTool).filter (fun _ => true) =
        Wiring.sources links id .functionTool := by simp
    refine ⟨_, Graph.collects_sources (k := .functionTool) (q := fun _ => true) hlinks hnodup
      (by simp), ?_⟩
    rw [hall]
    exact List.forall₂_map_left_iff.2 htools
  · rw [Block.AgentCall.listed?, hreadHandoffs]
  · exact ⟨_, Graph.collects_handoffs hlinks hnodup, hhandoffs⟩

/-- **The text of an agent says how the agent is wired.** -/
theorem Built.wiredAs_agentBlock (hb : Built g links p) (hlinks : g.links = .ok links)
    (hnodup : g.nodeIds.Nodup) {d : AgentData} {a : AgentDefinition} (ha : a ∈ p.agents)
    (h : agentDefinition (Naming.ofGraph g) links id d = .ok a) : g.WiredAs id (agentBlock a) := by
  have hd : Definition.agent a ∈ p.definitions :=
    List.mem_append_right _ (List.mem_map_of_mem ha)
  refine ⟨_, Block.agent?_agentBlock (hb.usable_name hd).1.1 fun r hr => ?_,
    wires_of_agentDefinition hlinks hnodup h⟩
  exact hb.isLegal_of_mem_references hlinks (mem_references_of_definition hd hr)

theorem map_fst_agentNodes (g : Graph) :
    (agentNodes g).map (·.1) = (g.nodesOfKind .agent).map (·.id) := by
  refine selects_agent.map_fst (fun p => ?_) g.nodes
  cases p <;> simp [Payload.kind]

end Program

/-- **The text of a program says exactly how agents are wired.**  A graph whose ids are all
different and whose edges all have their ends has a program, and the text of the program is made of
blocks.  After the blocks of all other definitions there is one block for each agent, in some order.
The block is nothing but the call that makes the agent, and the lists in the call name what edges
join to the agent.  No name is defined twice in the text, so every agent is defined exactly once,
and no name stands for two things, so names can be traced back to nodes. -/
theorem Graph.generate_wiring {g : Graph} (hnodup : g.nodeIds.Nodup) (hclosed : g.Closed)
    (m : Metadata) :
    ∃ p others blocks order, Program.build g m = .ok p ∧ g.generate m = .ok p.render ∧
      Block.Makes p.headBlocks (others ++ blocks ++ p.lastBlocks) p.render ∧
      List.Forall₂ Definition.ReadAs (p.definitions.filter (·.role ≠ .agent)) others ∧
      ((p.headBlocks ++ (others ++ blocks) ++ p.lastBlocks).flatMap Block.definedNames).Nodup ∧
      (∀ x y s, (Naming.ofGraph g).nameOf? x = some s → (Naming.ofGraph g).nameOf? y = some s →
        x = y) ∧
      order.Perm ((g.nodesOfKind .agent).map (·.id)) ∧ List.Forall₂ g.WiredAs order blocks := by
  obtain ⟨links, p, hlinks, hbuild, hb⟩ := Program.exists_built hclosed hnodup m
  obtain ⟨others, hblocks, hothers, hemitted⟩ := p.forall₂_otherBlocks
  -- agents are defined in another order than that of the nodes, so the order is part of the result
  have hwired : List.Forall₂ g.WiredAs ((Program.agentOrder g links).map (·.1))
      (p.agents.map Program.agentBlock) := by
    rw [List.forall₂_map_left_iff, List.forall₂_map_right_iff]
    have hmem := (List.forall₂_and_left (p := (· ∈ p.agents)) _ _).2
      ⟨fun _ ha => ha, hb.agents.flip⟩
    exact hmem.flip.imp fun _ _ ⟨ha, h⟩ => hb.wiredAs_agentBlock hlinks hnodup ha h
  have hperm : ((Program.agentOrder g links).map (·.1)).Perm
      ((g.nodesOfKind .agent).map (·.id)) := by
    rw [← Program.map_fst_agentNodes]
    exact (Program.agentOrder_perm hnodup links).map _
  refine ⟨p, others, _, _, hbuild, generate_of_build hbuild, hblocks ▸ p.makes_render,
    hb.forall₂_readAs hlinks (fun _ hd => List.mem_of_mem_filter hd) hothers,
    hb.nodup_definedNames hnodup (hb.forall₂_readAs hlinks (fun _ hd => hd) hemitted),
    (Naming.apart_ofGraph g).injective, hperm, ?_⟩
  exact Program.forall₂_titled (fun _ _ h => h.cons (by decide)) hwired

/-- Two agents with edges of all kinds in between: repeated ones, one from an agent to itself, and
some that lead the wrong way. -/
def Graph.tangled : Graph :=
  { nodes := [⟨"a", none, .agent { name := "Ann" }⟩, ⟨"b", none, .agent { name := "Ben" }⟩,
      ⟨"t", none, .functionTool { name := "Tea" }⟩,
      ⟨"u", none, .functionTool { name := "Umbrella" }⟩,
      ⟨"v", none, .guardrail { name := "Vet", side := .input }⟩,
      ⟨"w", none, .guardrail { name := "Warden", side := .output }⟩]
    edges := [⟨"1", "u", "a"⟩, ⟨"2", "a", "a"⟩, ⟨"3", "w", "a"⟩, ⟨"4", "a", "b"⟩, ⟨"5", "u", "a"⟩,
      ⟨"6", "a", "t"⟩, ⟨"7", "t", "a"⟩, ⟨"8", "v", "a"⟩, ⟨"9", "a", "b"⟩, ⟨"10", "v", "b"⟩] }

/-- Each agent is given what edges join to it, once and in the order of first mention; the second
agent is defined first, since the first one hands off to it. -/
theorem Graph.generate_wiring_tangled :
    Graph.tangled.nodeIds.Nodup ∧ Graph.tangled.Closed ∧
      ∃ p others blocks order, Program.build Graph.tangled {} = .ok p ∧
        Block.Makes p.headBlocks (others ++ blocks ++ p.lastBlocks) p.render ∧
        order.Perm ["a", "b"] ∧ List.Forall₂ Graph.tangled.WiredAs order blocks ∧
        p.agents.map (fun a => (a.name, a.tools, a.handoffs)) =
          [("ben", [], []), ("ann", ["umbrella", "tea"], ["ben"])] ∧
        p.agents.map (fun a => (a.inputGuardrails, a.outputGuardrails)) =
          [(["vet"], []), (["vet"], ["warden"])] := by
  have hnodup : Graph.tangled.nodeIds.Nodup := by decide
  have hclosed : Graph.tangled.Closed := Graph.checkReferences_eq_ok_iff.1 rfl
  obtain ⟨p, others, blocks, order, hbuild, -, hmakes, -, -, -, hperm, hwired⟩ :=
    Graph.generate_wiring hnodup hclosed {}
  have hgiven : (Program.build Graph.tangled {}).toOption.map
      (·.agents.map fun a => (a.name, a.tools, a.handoffs)) =
        some [("ben", [], []), ("ann", ["umbrella", "tea"], ["ben"])] := by
    decide +kernel
  have hguarded : (Program.build Graph.tangled {}).toOption.map
      (·.agents.map fun a => (a.inputGuardrails, a.outputGuardrails)) =
        some [(["vet"], []), (["vet"], ["warden"])] := by
    decide +kernel
  rw [hbuild] at hgiven hguarded
  exact ⟨hnodup, hclosed, p, others, blocks, order, hbuild, hmakes, hperm, hwired,
    Option.some.inj hgiven, Option.some.inj hguarded⟩

end AgentFlow

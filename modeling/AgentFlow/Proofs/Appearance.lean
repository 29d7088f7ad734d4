import AgentFlow.Proofs.Dangling

/-!
# What a program does not show

The editor keeps things in a graph that are not for the program: where nodes stand, whether they are
expanded, what edges are called, and the names and messages of inputs.  Graphs that differ in
nothing else have one text.

Two graphs are compared through their bare forms, in which all of that is wiped out.  It is enough
that wiping it out changes no step of building the program.

## Main definitions

* `Payload.bare`, `Node.bare`, `Edge.bare`, `Graph.bare`: what counts for a program.
* `Graph.Alike`: the graphs differ only in what does not count.

## Main results

* `Wiring.arrange_map`: the order of agents depends on their ids alone.
* `Program.build_bare`: **a graph and its bare form have the same program.**
* `Graph.generate_eq_of_alike`: **graphs that are alike have one text.**
-/

namespace AgentFlow

/-! ### Bare graphs -/

/-- What counts of a payload: not whether it is shown expanded, and of an input nothing at all. -/
def Payload.bare : Payload → Payload
  | .input _ => .input {}
  | p => p.withHeading { p.heading with isExpanded := false }

/-- What counts of a node: its id, and what counts of its payload. -/
def Node.bare (n : Node) : Node := { id := n.id, payload := n.payload.bare }

/-- What counts of an edge: its ends. -/
def Edge.bare (e : Edge) : Edge := { e with id := "" }

/-- What counts of a graph. -/
def Graph.bare (g : Graph) : Graph :=
  { nodes := g.nodes.map Node.bare, edges := g.edges.map Edge.bare }

/-- What counts of a link. -/
def Link.bare (l : Link) : Link :=
  { edge := l.edge.bare, source := l.source.bare, target := l.target.bare }

/-- The graphs have the same nodes up to what does not count, and edges with the same ends, in the
same order. -/
structure Graph.Alike (g h : Graph) : Prop where
  nodes : h.nodes.map Node.bare = g.nodes.map Node.bare
  ends : h.edges.map (fun e => (e.source, e.target)) = g.edges.map fun e => (e.source, e.target)

@[simp] theorem Node.id_bare (n : Node) : n.bare.id = n.id := rfl

@[simp] theorem Node.kind_bare (n : Node) : n.bare.kind = n.kind := by
  obtain ⟨id, position, payload⟩ := n
  cases payload <;> rfl

theorem Graph.Alike.bare_eq {g h : Graph} (halike : g.Alike h) : h.bare = g.bare := by
  have hbare : ∀ edges : List Edge, edges.map Edge.bare =
      (edges.map fun e => (e.source, e.target)).map fun p => ⟨"", p.1, p.2⟩ := by
    intro edges
    rw [List.map_map]
    rfl
  rw [Graph.bare, Graph.bare, halike.nodes, hbare, hbare, halike.ends]

/-! ### Names -/

namespace Naming

/-- The names of a node's definitions depend on what counts of the node. -/
theorem addNode_bare (names : Naming) (n : Node) : names.addNode n.bare = names.addNode n := by
  obtain ⟨id, position, payload⟩ := n
  cases payload <;> rfl

theorem ofGraph_bare (g : Graph) : ofGraph g.bare = ofGraph g := by
  rw [ofGraph, Graph.bare, List.foldl_map]
  simp only [addNode_bare]
  rfl

end Naming

/-! ### Links -/

namespace Graph

variable {g : Graph} {links : List Link} {l l' : Link}

theorem node?_bare (g : Graph) (id : NodeId) : g.bare.node? id = (g.node? id).map Node.bare := by
  rw [node?, bare, ← List.map_reverse, List.find?_map]
  rfl

theorem nodeIds_bare (g : Graph) : g.bare.nodeIds = g.nodeIds := by
  rw [nodeIds, bare, List.map_map]
  rfl

theorem Closed.bare (hclosed : g.Closed) : g.bare.Closed := by
  intro e he
  obtain ⟨e', he', rfl⟩ := List.mem_map.1 he
  rw [nodeIds_bare]
  exact hclosed e' he'

/-- The two nodes that an edge links are found by their ids, so the bare edge links the bare nodes.
-/
theorem link_bare {e : Edge} (h : g.link e = .ok l) : g.bare.link e.bare = .ok l.bare := by
  obtain ⟨rfl, hs, ht⟩ := link_eq_ok h
  have hs' : g.bare.node? l.edge.bare.source = some l.source.bare := by
    rw [node?_bare]
    exact congrArg (Option.map Node.bare) hs
  have ht' : g.bare.node? l.edge.bare.target = some l.target.bare := by
    rw [node?_bare]
    exact congrArg (Option.map Node.bare) ht
  rw [link, hs', ht']
  rfl

theorem links_bare (hlinks : g.links = .ok links) : g.bare.links = .ok (links.map Link.bare) := by
  refine mapM_eq_ok_iff.2 ?_
  rw [bare, List.forall₂_map_left_iff, List.forall₂_map_right_iff]
  exact (mapM_eq_ok_iff.1 hlinks).imp fun _ _ h => link_bare h

/-- Links that leave nodes with one id leave one node, also where ids are repeated. -/
theorem source_eq_of_id_eq (hlinks : g.links = .ok links) (hl : l ∈ links) (hl' : l' ∈ links)
    (hid : l.source.id = l'.source.id) : l.source = l'.source := by
  have hfound : ∀ k ∈ links, g.node? k.source.id = some k.source := by
    intro k hk
    obtain ⟨e, -, hlink⟩ := exists_left_of_forall₂ (mapM_eq_ok_iff.1 hlinks) hk
    obtain ⟨rfl, hs, -⟩ := link_eq_ok hlink
    rw [(mem_and_id_of_node? hs).2]
    exact hs
  have hsame := hfound l hl
  rw [hid, hfound l' hl'] at hsame
  exact (Option.some.inj hsame).symm

end Graph

/-! ### Wiring -/

/-- Repetitions are the same before and after a function that tells the entries apart. -/
theorem eraseDups_map_of_injOn {α β : Type} [DecidableEq α] [DecidableEq β] {f : α → β} :
    ∀ l : List α, (∀ a ∈ l, ∀ b ∈ l, f a = f b → a = b) →
      (l.map f).eraseDups = l.eraseDups.map f
  | [], _ => by simp
  | a :: l, hf => by
    -- the recursion is on what is left after the head and its repetitions, where `f` still tells
    -- the entries apart
    have hsame : ∀ b ∈ l, (!f b == f a) = !b == a := by
      intro b hb
      by_cases heq : b = a
      · simp [heq]
      · have hne : f b ≠ f a := fun h =>
          heq (hf b (List.mem_cons_of_mem _ hb) a List.mem_cons_self h)
        simp [heq, hne]
    have hrest : (l.map f).filter (fun b => !b == f a) = (l.filter fun b => !b == a).map f := by
      rw [List.filter_map, Function.comp_def, List.filter_congr hsame]
    have hf' : ∀ b ∈ l.filter (fun b => !b == a), ∀ c ∈ l.filter (fun b => !b == a),
        f b = f c → b = c := fun b hb c hc =>
      hf b (List.mem_cons_of_mem _ (List.mem_filter.1 hb).1) c
        (List.mem_cons_of_mem _ (List.mem_filter.1 hc).1)
    rw [List.map_cons, List.eraseDups_cons, hrest, eraseDups_map_of_injOn _ hf',
      List.eraseDups_cons, List.map_cons]
termination_by l => l.length
decreasing_by exact Nat.lt_succ_of_le (List.length_filter_le _ l)

namespace Wiring

variable {g : Graph} {links : List Link}

/-- A choice of links that only looks at what counts is the same for bare links. -/
theorem filter_bare {p : Link → Bool} (hp : ∀ l : Link, p l.bare = p l) (links : List Link) :
    (links.map Link.bare).filter p = (links.filter p).map Link.bare := by
  rw [List.filter_map]
  exact congrArg (List.map Link.bare) (List.filter_congr fun l _ => hp l)

/-- Handoffs are told by the kinds and ids of the nodes that are linked, and these stay in the bare
form. -/
theorem handoffs_bare (links : List Link) (id : NodeId) :
    handoffs (links.map Link.bare) id = handoffs links id := by
  have hp : ∀ l : Link,
      decide (l.bare.edge.source = id ∧ l.bare.edge.target ≠ id ∧ l.bare.target.kind = .agent) =
        decide (l.edge.source = id ∧ l.edge.target ≠ id ∧ l.target.kind = .agent) := by
    intro l
    rw [decide_eq_decide]
    simp [Link.bare, Edge.bare]
  rw [handoffs, filter_bare hp, List.map_map]
  rfl

/-- What leads to a node leads to it in the bare graph too, in the same order.  Ids tell nodes
apart, so no repetition arises that was not there before. -/
theorem sources_bare (hlinks : g.links = .ok links) (id : NodeId) (k : Kind) :
    sources (links.map Link.bare) id k = (sources links id k).map Node.bare := by
  have hp : ∀ l : Link, decide (l.bare.edge.target = id ∧ l.bare.source.kind = k) =
      decide (l.edge.target = id ∧ l.source.kind = k) := by
    intro l
    rw [decide_eq_decide]
    simp [Link.bare, Edge.bare]
  have hinj : ∀ a ∈ (links.filter fun l => l.edge.target = id ∧ l.source.kind = k).map (·.source),
      ∀ b ∈ (links.filter fun l => l.edge.target = id ∧ l.source.kind = k).map (·.source),
        a.bare = b.bare → a = b := by
    intro a ha b hb heq
    obtain ⟨l, hl, rfl⟩ := List.mem_map.1 ha
    obtain ⟨l', hl', rfl⟩ := List.mem_map.1 hb
    have hid : l.source.bare.id = l'.source.bare.id := congrArg Node.id heq
    exact Graph.source_eq_of_id_eq hlinks (List.mem_filter.1 hl).1 (List.mem_filter.1 hl').1 hid
  rw [sources, sources, ← eraseDups_map_of_injOn _ hinj, filter_bare hp, List.map_map, List.map_map]
  rfl

theorem runnerAgent?_bare (links : List Link) (id : NodeId) :
    runnerAgent? (links.map Link.bare) id = runnerAgent? links id := by
  have hp : ∀ l : Link, decide (l.bare.edge.target = id) = decide (l.edge.target = id) :=
    fun _ => rfl
  rw [runnerAgent?, runnerAgent?, filter_bare hp]
  generalize links.filter (·.edge.target = id) = incoming
  match incoming with
  | [] => rfl
  | [l] => simp [Link.bare]
  | _ :: _ :: _ => rfl

/-- The order depends on the ids alone, not on what stands beside them. -/
theorem arrange_map {α β : Type} (f : α → β) (targets : NodeId → List NodeId) (done : List NodeId)
    (pending : List (NodeId × α)) :
    arrange targets done (pending.map (Prod.map id f)) =
      (arrange targets done pending).map (Prod.map id f) := by
  -- along the recursion of `arrange`: whether an entry can be taken depends on its id alone, so
  -- both sides take the same one
  fun_induction arrange targets done pending with
  | case1 done pending hfind =>
    refine arrange_of_find?_eq_none ?_
    rw [List.find?_map]
    exact Option.map_eq_none_iff.2 hfind
  | case2 done pending p hfind ih =>
    have hsome : (pending.map (Prod.map id f)).find? (fun p => (targets p.1).all (· ∈ done)) =
        some (Prod.map id f p) := by
      rw [List.find?_map]
      exact congrArg (Option.map (Prod.map id f)) hfind
    have hothers : others (pending.map (Prod.map id f)) p.1 =
        (others pending p.1).map (Prod.map id f) := by
      rw [others, others, List.filter_map]
      rfl
    rw [arrange_of_find?_eq_some hsome, List.map_cons, ← ih, ← hothers]
    rfl

end Wiring

/-! ### Definitions -/

namespace Program

variable {g : Graph} {links : List Link} {names : Naming}

/-- The entries that are read off bare nodes are those of the nodes, with their data changed. -/
theorem filterMap_bare {δ : Type} {f : Node → Option (NodeId × δ)} {strip : δ → δ}
    (hf : ∀ n, f n.bare = (f n).map (Prod.map id strip)) (nodes : List Node) :
    (nodes.map Node.bare).filterMap f = (nodes.filterMap f).map (Prod.map id strip) := by
  rw [List.filterMap_map, List.map_filterMap]
  exact List.filterMap_congr fun n _ => hf n

theorem toolNodes_bare (g : Graph) : toolNodes g.bare =
    (toolNodes g).map (Prod.map id fun d => { d with isExpanded := false }) := by
  refine filterMap_bare (fun n => ?_) g.nodes
  obtain ⟨id, position, payload⟩ := n
  cases payload <;> rfl

theorem guardrailNodes_bare (g : Graph) : guardrailNodes g.bare =
    (guardrailNodes g).map (Prod.map id fun d => { d with isExpanded := false }) := by
  refine filterMap_bare (fun n => ?_) g.nodes
  obtain ⟨id, position, payload⟩ := n
  cases payload <;> rfl

theorem agentNodes_bare (g : Graph) : agentNodes g.bare =
    (agentNodes g).map (Prod.map id fun d => { d with isExpanded := false }) := by
  refine filterMap_bare (fun n => ?_) g.nodes
  obtain ⟨id, position, payload⟩ := n
  cases payload <;> rfl

theorem runnerNodes_bare (g : Graph) : runnerNodes g.bare =
    (runnerNodes g).map (Prod.map id fun d => { d with isExpanded := false }) := by
  refine filterMap_bare (fun n => ?_) g.nodes
  obtain ⟨id, position, payload⟩ := n
  cases payload <;> rfl

theorem agentOrder_bare (g : Graph) (links : List Link) :
    agentOrder g.bare (links.map Link.bare) =
      (agentOrder g links).map (Prod.map id fun d => { d with isExpanded := false }) := by
  rw [agentOrder, agentNodes_bare, funext (Wiring.handoffs_bare links), Wiring.arrange_map]
  rfl

theorem guardrailNames_bare (hlinks : g.links = .ok links) (id : NodeId) (side : GuardrailSide) :
    guardrailNames names (links.map Link.bare) id side = guardrailNames names links id side := by
  rw [guardrailNames, guardrailNames, Wiring.sources_bare hlinks, List.filter_map, List.mapM_map]
  refine congrArg (List.mapM fun n : Node => named n.id (names.guard? n.id)) ?_
  refine List.filter_congr fun n _ => ?_
  obtain ⟨id, position, payload⟩ := n
  cases payload <;> rfl

theorem agentDefinition_bare (hlinks : g.links = .ok links) (id : NodeId) (d : AgentData) :
    agentDefinition names (links.map Link.bare) id { d with isExpanded := false } =
      agentDefinition names links id d := by
  simp only [agentDefinition, Wiring.sources_bare hlinks, Wiring.handoffs_bare,
    guardrailNames_bare hlinks, List.mapM_map]
  rfl

theorem stanza_bare (names : Naming) (links : List Link) (id : NodeId) (d : RunnerData) :
    stanza names (links.map Link.bare) id { d with isExpanded := false } =
      stanza names links id d := by
  rw [stanza, Wiring.runnerAgent?_bare]
  rfl

/-- **A graph and its bare form have the same program.**  Positions, the ids of edges and whether
nodes are expanded do not show in it, and neither do inputs, whose messages are kept by runners. -/
theorem build_bare (hclosed : g.Closed) (m : Metadata) : build g.bare m = build g m := by
  obtain ⟨links, hlinks⟩ := Graph.exists_links hclosed
  -- part by part, since each part is made node by node and its maker does not look at what is
  -- dropped
  have htools : (toolNodes g.bare).mapM (fun x => toolFunction (Naming.ofGraph g) x.1 x.2) =
      (toolNodes g).mapM fun x => toolFunction (Naming.ofGraph g) x.1 x.2 := by
    rw [toolNodes_bare, List.mapM_map]
    rfl
  have hguardrails : (guardrailNodes g.bare).mapM (fun x => guardrail (Naming.ofGraph g) x.1 x.2) =
      (guardrailNodes g).mapM fun x => guardrail (Naming.ofGraph g) x.1 x.2 := by
    rw [guardrailNodes_bare, List.mapM_map]
    rfl
  have hagents : (agentOrder g.bare (links.map Link.bare)).mapM
        (fun x => agentDefinition (Naming.ofGraph g) (links.map Link.bare) x.1 x.2) =
      (agentOrder g links).mapM fun x => agentDefinition (Naming.ofGraph g) links x.1 x.2 := by
    rw [agentOrder_bare, List.mapM_map]
    congr 1
    funext x
    exact agentDefinition_bare hlinks x.1 x.2
  have hstanzas : (runnerNodes g.bare).mapM
        (fun x => stanza (Naming.ofGraph g) (links.map Link.bare) x.1 x.2) =
      (runnerNodes g).mapM fun x => stanza (Naming.ofGraph g) links x.1 x.2 := by
    rw [runnerNodes_bare, List.mapM_map]
    congr 1
    funext x
    exact stanza_bare _ links x.1 x.2
  have hcounts : g.bare.nodes.length = g.nodes.length ∧ g.bare.edges.length = g.edges.length := by
    simp [Graph.bare]
  simp only [build, hlinks, Graph.links_bare hlinks, Naming.ofGraph_bare, hcounts, Except.mapError,
    bind, Except.bind]
  rw [htools, hguardrails, hagents, hstanzas]

end Program

/-! ### Texts -/

namespace Graph

variable {g h : Graph}

theorem generate_bare (hclosed : g.Closed) (m : Metadata) : g.bare.generate m = g.generate m := by
  rw [generate, generate, Program.build_bare hclosed]

/-- A graph that is like a closed graph is closed: bare graphs have the same ends. -/
theorem Alike.closed (halike : g.Alike h) (hclosed : g.Closed) : h.Closed := by
  intro e he
  have hmem : e.bare ∈ g.bare.edges := by
    rw [← halike.bare_eq]
    exact List.mem_map_of_mem he
  have hends := hclosed.bare e.bare hmem
  rw [← halike.bare_eq, nodeIds_bare] at hends
  exact hends

/-- **Graphs that are alike have one text.**  Where nodes stand, which of them are expanded, what
edges are called and what inputs are called and say does not matter to the text of a program, with
whatever name and description it is emitted. -/
theorem generate_eq_of_alike (hclosed : g.Closed) (halike : g.Alike h) (m : Metadata) :
    ∃ text, g.generate m = .ok text ∧ h.generate m = .ok text := by
  obtain ⟨_, p, -, hgenerate⟩ := exists_complete hclosed m
  refine ⟨p.render, hgenerate, ?_⟩
  rw [← generate_bare (halike.closed hclosed), halike.bare_eq, generate_bare hclosed, hgenerate]

/-- An agent between an input and a runner.  A guardrail has the id of the input, and the agent
hands off to itself. -/
def folded : Graph :=
  { nodes := [⟨"i", none, .input { name := "Question", message := "Who?" }⟩,
      ⟨"a", none, .agent { name := "Ann" }⟩, ⟨"i", none, .guardrail { name := "Vet" }⟩,
      ⟨"r", none, .runner { input := "Who?" }⟩]
    edges := [⟨"1", "i", "a"⟩, ⟨"2", "a", "a"⟩, ⟨"3", "a", "r"⟩] }

/-- The same with all nodes expanded, one of them moved, another question and other ids of edges. -/
def unfolded : Graph :=
  { nodes := [⟨"i", none, .input { name := "Riddle", isExpanded := true, message := "Why?" }⟩,
      ⟨"a", some ⟨.zero, .zero⟩, .agent { name := "Ann", isExpanded := true }⟩,
      ⟨"i", none, .guardrail { name := "Vet", isExpanded := true }⟩,
      ⟨"r", none, .runner { isExpanded := true, input := "Who?" }⟩]
    edges := [⟨"x", "i", "a"⟩, ⟨"x", "a", "a"⟩, ⟨"", "a", "r"⟩] }

/-- Unfolding changes the graph and keeps the text. -/
theorem generate_eq_of_alike_unfolded :
    folded.Closed ∧ folded.Alike unfolded ∧ folded ≠ unfolded ∧
      ∃ text, folded.generate {} = .ok text ∧ unfolded.generate {} = .ok text := by
  have hclosed : folded.Closed := by unfold Closed; decide
  have halike : folded.Alike unfolded := ⟨by decide, by decide⟩
  exact ⟨hclosed, halike, by decide, generate_eq_of_alike hclosed halike {}⟩

end Graph
end AgentFlow

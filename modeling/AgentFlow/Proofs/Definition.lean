import AgentFlow.Program.Render
import AgentFlow.Proofs.Naming
import Mathlib.Data.List.Forall2

/-!
# Definitions and references

The definitions of a program in the order in which they are emitted, the names they refer to, and
their places in the text.

## Main definitions

* `Definition`, `Definition.references`, `Definition.binding`: a definition, the names it refers to,
  and how the line begins that binds its name.
* `Program.definitions`, `Program.references`: all of them.
* `Definition.EmittedAs`: a block of the text is that of a definition.
* `Definition.Ordered`: definitions refer to what was defined before them.
* `Block.Makes`: a text is made of blocks.

## Main results

* `Program.forall₂_bodyBlocks`: **the text of a program has one block for each definition, in
  order.**
* `Program.forall₂_otherBlocks`, `Program.forall₂_laterBlocks`: the agents stand after all other
  definitions, and the classes before them.
* `Definition.ordered_iff`: what it means that definitions are in order.
-/

namespace AgentFlow

/-- A definition of a program. -/
inductive Definition where
  | record (c : RecordClass)
  | tool (t : ToolFunction)
  | checker (c : Checker)
  | guard (g : Guard)
  | agent (a : AgentDefinition)
  deriving DecidableEq, Repr

namespace Definition

/-- What a definition is. -/
def role : Definition → Role
  | .record _ => .record
  | .tool _ => .tool
  | .checker _ => .checker
  | .guard _ => .guard
  | .agent _ => .agent

/-- The name that a definition binds. -/
def name : Definition → String
  | .record c => c.name
  | .tool t => t.name
  | .checker c => c.name
  | .guard g => g.name
  | .agent a => a.name

/-- What a definition makes known to those after it. -/
def key (d : Definition) : Role × String := (d.role, d.name)

/-- The names that a definition refers to, and what each should be the name of.  A guard refers to
its checker when it is called, all others when they are defined. -/
def references : Definition → List (Role × String)
  | .record _ => []
  | .tool _ => []
  | .checker c => c.outputType.toList.map (Role.record, ·)
  | .guard g => [(.checker, g.checker)]
  | .agent a =>
    a.tools.map (Role.tool, ·) ++ a.handoffs.map (Role.agent, ·) ++
      a.outputType.toList.map (Role.record, ·) ++
      (a.inputGuardrails ++ a.outputGuardrails).map (Role.guard, ·)

/-- The lines of a definition. -/
def block : Definition → Block
  | .record c => Program.classBlock c
  | .tool t => Program.toolBlock t
  | .checker c => Program.checkerBlock c
  | .guard g => Program.guardBlock g
  | .agent a => Program.agentBlock a

/-- How the line begins that binds the name. -/
def binding : Definition → String
  | .record c => "class " ++ c.name ++ "(BaseModel):"
  | .tool t => "def " ++ t.name ++ "("
  | .checker c => c.name ++ " = Agent("
  | .guard g => "async def " ++ g.name ++ "(ctx: RunContextWrapper, agent: Agent, "
  | .agent a => a.name ++ " = Agent("

/-- The titles that stand above the first definition of a sort. -/
def titles : List String := ["# Function Tools", "# Guardrail Definitions", "# Agents"]

/-- A block of the text is that of a definition, maybe with a title above it. -/
def EmittedAs (d : Definition) (b : Block) : Prop :=
  ∃ above : Block, (∀ title ∈ above, title ∈ titles) ∧ b = above ++ d.block

theorem emittedAs_block (d : Definition) : d.EmittedAs d.block :=
  ⟨[], by simp, rfl⟩

theorem EmittedAs.cons {d : Definition} {b : Block} (h : d.EmittedAs b) {title : String}
    (htitle : title ∈ titles) : d.EmittedAs (title :: b) := by
  obtain ⟨above, habove, rfl⟩ := h
  exact ⟨title :: above, List.forall_mem_cons.2 ⟨htitle, habove⟩, rfl⟩

theorem EmittedAs.suffix {d : Definition} {b : Block} (h : d.EmittedAs b) : d.block <:+ b := by
  obtain ⟨above, -, rfl⟩ := h
  exact List.suffix_append _ _

/-! ### Order -/

/-- Every definition refers only to what is known or was defined before it. -/
def Ordered (known : List (Role × String)) : List Definition → Prop
  | [] => True
  | d :: ds => (∀ r ∈ d.references, r ∈ known) ∧ Ordered (known ++ [d.key]) ds

variable {known : List (Role × String)} {ds es : List Definition}

theorem ordered_of_forall_mem (h : ∀ d ∈ ds, ∀ r ∈ d.references, r ∈ known) : Ordered known ds := by
  induction ds generalizing known with
  | nil => trivial
  | cons d ds ih =>
    rw [List.forall_mem_cons] at h
    exact ⟨h.1, ih fun e he r hr => List.mem_append_left _ (h.2 e he r hr)⟩

theorem ordered_append :
    Ordered known (ds ++ es) ↔ Ordered known ds ∧ Ordered (known ++ ds.map key) es := by
  induction ds generalizing known with
  | nil => simp [Ordered]
  | cons d ds ih =>
    rw [List.cons_append, Ordered, ih, Ordered, List.map_cons, List.append_assoc, and_assoc]
    rfl

/-- Definitions are in order exactly if everything that one of them refers to is known or defined
before it. -/
theorem ordered_iff :
    Ordered known ds ↔ ∀ before d after, ds = before ++ d :: after →
      ∀ r ∈ d.references, r ∈ known ∨ ∃ e ∈ before, e.key = r := by
  constructor
  · rintro h before d after rfl r hr
    have hmem := (ordered_append.1 h).2.1 r hr
    rwa [List.mem_append, List.mem_map] at hmem
  · intro h
    induction ds generalizing known with
    | nil => trivial
    | cons d ds ih =>
      -- for the rest, the first definition is one of those known
      refine ⟨fun r hr => ?_, ih fun before e after heq r hr => ?_⟩
      · simpa using h [] d ds rfl r hr
      · rw [List.mem_append, List.mem_singleton]
        have hsplit : d :: ds = (d :: before) ++ e :: after := by rw [heq, List.cons_append]
        rcases h (d :: before) e after hsplit r hr with hknown | ⟨f, hf, rfl⟩
        · exact Or.inl (Or.inl hknown)
        · rcases List.mem_cons.1 hf with rfl | hf
          · exact Or.inl (Or.inr rfl)
          · exact Or.inr ⟨f, hf, rfl⟩

end Definition

/-- The names that a stanza refers to. -/
def Stanza.references : Stanza → List (Role × String)
  | .call agent _ _ _ => [(.agent, agent)]
  | .idle _ => []

/-- The text is made of blocks and of nothing else: first those of the head, then the others.  Lines
are joined by line feeds, with one empty line between the blocks of the head and two between the
others. -/
def Block.Makes (head body : List Block) (text : String) : Prop :=
  text = String.intercalate "\n\n" (head.map (String.intercalate "\n")) ++ "\n\n\n" ++
    String.intercalate "\n\n\n" (body.map (String.intercalate "\n")) ++ "\n"

namespace Program

/-- The definitions of a program, in the order in which they are emitted. -/
def definitions (p : Program) : List Definition :=
  p.classes.map .record ++ p.tools.map .tool ++
    (p.guardrails.flatMap fun (c, g) => [.checker c, .guard g]) ++ p.agents.map .agent

/-- All names that a program refers to. -/
def references (p : Program) : List (Role × String) :=
  p.definitions.flatMap Definition.references ++ p.stanzas.flatMap Stanza.references

/-! ### The text -/

/-- The blocks behind the definitions: the main function, or the note that there is nothing to
execute. -/
def lastBlocks (p : Program) : List Block :=
  p.mainBlocks ++ if p.isEmpty then [emptyBlock p] else []

theorem makes_render (p : Program) : Block.Makes p.headBlocks p.bodyBlocks p.render := rfl

/-- A title above the first block does not matter to what titles do not disturb. -/
theorem forall₂_titled {α : Type} {R : α → Block → Prop} {title : String} {as : List α}
    {bs : List Block} (htitle : ∀ a b, R a b → R a (title :: b)) (h : List.Forall₂ R as bs) :
    List.Forall₂ R as (titled title bs) := by
  cases h with
  | nil => exact .nil
  | cons hfirst hrest => exact .cons (htitle _ _ hfirst) hrest

theorem forall₂_map_block (ds : List Definition) :
    List.Forall₂ Definition.EmittedAs ds (ds.map Definition.block) := by
  rw [List.forall₂_map_right_iff]
  exact List.forall₂_same.2 fun d _ => d.emittedAs_block

theorem forall₂_emittedAs_titled (title : String) (htitle : title ∈ Definition.titles)
    (ds : List Definition) :
    List.Forall₂ Definition.EmittedAs ds (titled title (ds.map Definition.block)) :=
  forall₂_titled (fun _ _ h => h.cons htitle) (forall₂_map_block ds)

/-- The definitions between the classes and the agents. -/
def middleDefinitions (p : Program) : List Definition :=
  p.tools.map .tool ++ p.guardrails.flatMap fun (c, g) => [.checker c, .guard g]

theorem definitions_eq (p : Program) :
    p.definitions = p.classes.map .record ++ p.middleDefinitions ++ p.agents.map .agent := by
  rw [definitions, middleDefinitions, ← List.append_assoc]

/-- The definitions of a program other than agents come first. -/
theorem filter_role_definitions (p : Program) :
    p.definitions.filter (·.role ≠ .agent) = p.classes.map .record ++ p.middleDefinitions := by
  have hagents : (p.agents.map Definition.agent).filter (·.role ≠ .agent) = [] := by
    simp [List.filter_eq_nil_iff, Definition.role]
  rw [definitions_eq, List.filter_append, hagents, List.append_nil, List.filter_eq_self]
  intro d hd
  simp only [middleDefinitions, List.mem_append, List.mem_map, List.mem_flatMap, List.mem_cons,
    List.not_mem_nil, or_false] at hd
  rcases hd with ⟨c, -, rfl⟩ | ⟨t, -, rfl⟩ | ⟨q, -, rfl | rfl⟩
  all_goals rfl

theorem forall₂_classBlocks (p : Program) :
    List.Forall₂ Definition.EmittedAs (p.classes.map .record) (p.classes.map classBlock) := by
  have h := forall₂_map_block (p.classes.map .record)
  rwa [List.map_map] at h

theorem forall₂_agentBlocks (p : Program) :
    List.Forall₂ Definition.EmittedAs (p.agents.map .agent)
      (titled "# Agents" (p.agents.map agentBlock)) := by
  have h := forall₂_emittedAs_titled "# Agents" (by decide) (p.agents.map .agent)
  rwa [List.map_map] at h

/-- Between the classes and the agents stand the blocks of tools and guardrails, which have titles
of their own. -/
theorem exists_bodyBlocks_eq (p : Program) :
    ∃ between, p.bodyBlocks = p.classes.map classBlock ++ between ++
        titled "# Agents" (p.agents.map agentBlock) ++ p.lastBlocks ∧
      List.Forall₂ Definition.EmittedAs p.middleDefinitions between := by
  have htools := forall₂_emittedAs_titled "# Function Tools" (by decide) (p.tools.map .tool)
  have hguardrails := forall₂_emittedAs_titled "# Guardrail Definitions" (by decide)
    (p.guardrails.flatMap fun (c, g) => [.checker c, .guard g])
  refine ⟨_, ?_, List.rel_append htools hguardrails⟩
  simp only [bodyBlocks, lastBlocks, List.map_map, List.map_flatMap, List.append_assoc]
  rfl

/-- The agents stand after the blocks of all other definitions, under their title. -/
theorem forall₂_otherBlocks (p : Program) :
    ∃ others, p.bodyBlocks = others ++ titled "# Agents" (p.agents.map agentBlock) ++
        p.lastBlocks ∧
      List.Forall₂ Definition.EmittedAs (p.definitions.filter (·.role ≠ .agent)) others ∧
      List.Forall₂ Definition.EmittedAs p.definitions
        (others ++ titled "# Agents" (p.agents.map agentBlock)) := by
  obtain ⟨between, hblocks, hbetween⟩ := p.exists_bodyBlocks_eq
  have hothers := List.rel_append p.forall₂_classBlocks hbetween
  rw [filter_role_definitions, definitions_eq]
  exact ⟨_, hblocks, hothers, List.rel_append hothers p.forall₂_agentBlocks⟩

/-- The classes stand before the blocks of all other definitions, without a title. -/
theorem forall₂_laterBlocks (p : Program) :
    ∃ later, p.bodyBlocks = p.classes.map classBlock ++ later ++ p.lastBlocks ∧
      List.Forall₂ Definition.EmittedAs p.definitions (p.classes.map classBlock ++ later) := by
  obtain ⟨between, hblocks, hbetween⟩ := p.exists_bodyBlocks_eq
  refine ⟨between ++ titled "# Agents" (p.agents.map agentBlock), ?_, ?_⟩
  · rw [hblocks, List.append_assoc (p.classes.map classBlock)]
  · rw [definitions_eq, List.append_assoc]
    exact List.rel_append p.forall₂_classBlocks (List.rel_append hbetween p.forall₂_agentBlocks)

/-- **The text of a program has one block for each definition, in order.** -/
theorem forall₂_bodyBlocks (p : Program) :
    ∃ blocks, p.bodyBlocks = blocks ++ p.lastBlocks ∧
      List.Forall₂ Definition.EmittedAs p.definitions blocks := by
  obtain ⟨others, hblocks, -, hemitted⟩ := p.forall₂_otherBlocks
  exact ⟨_, hblocks, hemitted⟩

end Program

theorem Graph.generate_of_build {g : Graph} {m : Metadata} {p : Program}
    (h : Program.build g m = .ok p) : g.generate m = .ok p.render := by
  rw [generate, h]
  rfl

end AgentFlow

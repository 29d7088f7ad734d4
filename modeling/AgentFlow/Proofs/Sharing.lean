import AgentFlow.Proofs.RecordText
import AgentFlow.Proofs.Resolution

/-!
# Record classes are shared

Agents and checkers that name the same model share one record class, and the first schema with that
name says what the class looks like.  Model names are compared as they stand.  So two of them that
read alike as identifiers have two classes.

## Main definitions

* `Graph.namedSchemas`, `Graph.modelNames`: the schemas with a model name, and these names.
* `StructuredSchema.Firsts`: the first schema of each name.
* `Graph.className`: the class of a model name.
* `Graph.DeclaredAs`: a block declares the class of a model name.
* `Graph.TypedAs`: a text makes the agent of a node, and gives the type of its answers.

## Main results

* `Naming.firsts_ofGraph`: **the first schema of each model name is entered.**
* `Graph.declaredAs_classBlock`: the class of a model name looks like the first schema with it.
* `Graph.generate_records`: **one class for each model name, and the right one for each agent.**
-/

namespace AgentFlow

/-! ### Schemas with a model name -/

/-- The schema, if it has a model name. -/
def StructuredSchema.named? : Option StructuredSchema → Option StructuredSchema
  | none => none
  | some s => if s.modelName = "" then none else some s

/-- The schema of the answers of a node's agent. -/
def Node.schema? (n : Node) : Option StructuredSchema :=
  match n.payload with
  | .agent d => d.outputSchema
  | .guardrail d => d.checkerSchema
  | .runner _ => none
  | .functionTool _ => none
  | .input _ => none

/-- The schemas with a model name in a graph, in the order of the nodes. -/
def Graph.namedSchemas (g : Graph) : List StructuredSchema :=
  g.nodes.filterMap fun n => StructuredSchema.named? n.schema?

/-- The model names in a graph, in the order of their first occurrence. -/
def Graph.modelNames (g : Graph) : List String :=
  (g.namedSchemas.map (·.modelName)).eraseDups

namespace StructuredSchema

/-- Of all schemas, the first one of each model name, in the order of their occurrence. -/
structure Firsts (all firsts : List StructuredSchema) : Prop where
  names : firsts.map (·.modelName) = (all.map (·.modelName)).eraseDups
  first : ∀ s ∈ firsts, all.find? (·.modelName = s.modelName) = some s

variable {all firsts : List StructuredSchema} {s : StructuredSchema}

theorem Firsts.mem_iff (h : Firsts all firsts) {a : String} :
    a ∈ firsts.map (·.modelName) ↔ a ∈ all.map (·.modelName) := by
  rw [h.names, List.mem_eraseDups]

theorem Firsts.find?_append (h : Firsts all firsts) (s : StructuredSchema) :
    ∀ t ∈ firsts, (all ++ [s]).find? (·.modelName = t.modelName) = some t := by
  intro t ht
  rw [List.find?_append, h.first t ht, Option.some_or]

/-- A schema whose model name was met before is not a first one. -/
theorem Firsts.skip (h : Firsts all firsts) (hmet : s.modelName ∈ firsts.map (·.modelName)) :
    Firsts (all ++ [s]) firsts where
  names := by
    have hold := h.mem_iff.1 hmet
    rw [h.names, List.map_append, List.map_singleton, eraseDups_append_singleton, if_pos hold,
      List.append_nil]
  first := h.find?_append s

/-- A schema whose model name is new is a first one. -/
theorem Firsts.enter (h : Firsts all firsts) (hnew : s.modelName ∉ firsts.map (·.modelName)) :
    Firsts (all ++ [s]) (firsts ++ [s]) where
  names := by
    have hfresh := mt h.mem_iff.2 hnew
    rw [List.map_append, List.map_append, h.names, List.map_singleton, eraseDups_append_singleton,
      if_neg hfresh]
  first := by
    intro t ht
    rcases List.mem_append.1 ht with ht | ht
    · exact h.find?_append s t ht
    · obtain rfl := List.mem_singleton.1 ht
      have hnone : all.find? (·.modelName = t.modelName) = none := by
        have hfresh := mt h.mem_iff.2 hnew
        simpa using hfresh
      rw [List.find?_append, hnone]
      simp

end StructuredSchema

/-! ### What is entered -/

namespace Naming

open StructuredSchema

variable {n : Naming} {all : List StructuredSchema}

/-- A schema is entered if it has a model name that is new. -/
theorem addSchema_firsts (h : Firsts all (n.schemas.map (·.schema)))
    (schema : Option StructuredSchema) (stem seed : String) :
    Firsts (all ++ (named? schema).toList)
      ((n.addSchema schema stem seed).schemas.map (·.schema)) := by
  cases schema with
  | none => simpa [addSchema, named?] using h
  | some s =>
    by_cases hvoid : s.modelName = ""
    · simpa [addSchema, named?, hvoid] using h
    · have hnamed : named? (some s) = some s := by simp [named?, hvoid]
      have hmem : (n.schemas.map (·.schema)).map (·.modelName) =
          n.schemas.map (·.schema.modelName) := by simp
      simp only [addSchema, if_neg hvoid, hnamed, Option.toList_some]
      -- whether the model name is new is seen from the entries, which keep their schemas
      cases hentry : n.entry? s.modelName with
      | some e =>
        apply h.skip
        rw [hmem]
        by_contra hnew
        exact absurd (hentry.symm.trans (entry?_eq_none_iff.2 hnew)) (by simp)
      | none =>
        simp only [List.map_append, List.map_singleton]
        apply h.enter
        rw [hmem]
        exact entry?_eq_none_iff.1 hentry

/-- Naming a node enters its schema if it has a model name that is new; the names that are given
besides enter none. -/
theorem addNode_firsts (h : Firsts all (n.schemas.map (·.schema))) (node : Node) :
    Firsts (all ++ (named? node.schema?).toList)
      ((n.addNode node).schemas.map (·.schema)) := by
  unfold addNode Node.schema?
  cases node.payload with
  | agent d =>
    apply addSchema_firsts
    exact h
  | guardrail d =>
    apply addSchema_firsts
    exact h
  | functionTool d => simpa [named?] using h
  | runner d => simpa [named?] using h
  | input d => simpa [named?] using h

/-- Node after node, the entries are the first schemas of their model names among all that the nodes
have. -/
theorem foldl_addNode_firsts (nodes : List Node) (h : Firsts all (n.schemas.map (·.schema))) :
    Firsts (all ++ nodes.filterMap fun m => named? m.schema?)
      ((nodes.foldl addNode n).schemas.map (·.schema)) := by
  induction nodes generalizing n all with
  | nil => simpa using h
  | cons node nodes ih =>
    have hrest := ih (addNode_firsts h node)
    rw [List.foldl_cons]
    cases hnode : named? node.schema? with
    | none => simpa [hnode] using hrest
    | some s => simpa [hnode] using hrest

/-- **The first schema of each model name is entered.** -/
theorem firsts_ofGraph (g : Graph) :
    Firsts g.namedSchemas ((ofGraph g).schemas.map (·.schema)) := by
  have hempty : Firsts [] (({} : Naming).schemas.map (·.schema)) := ⟨rfl, by simp⟩
  exact foldl_addNode_firsts g.nodes hempty

end Naming

/-! ### Classes -/

namespace Graph

open Literal Program Text

variable {g : Graph} {links : List Link} {n : Node} {a b : String}

/-- The name of the class of a model name. -/
def className (g : Graph) (modelName : String) : String :=
  ((Naming.ofGraph g).nameOf? (.record, modelName)).getD ""

theorem map_modelName_schemas (g : Graph) :
    (Naming.ofGraph g).schemas.map (·.schema.modelName) = g.modelNames := by
  rw [modelNames, ← (Naming.firsts_ofGraph g).names, List.map_map]
  rfl

/-- A schema that was entered has the class of its model name. -/
theorem className_of_mem {e : SchemaEntry} (he : e ∈ (Naming.ofGraph g).schemas) :
    g.className e.schema.modelName = e.className := by
  rw [className, (Naming.apart_ofGraph g).nameOf?_record he, Option.getD_some]

/-- The model names in a graph have classes. -/
theorem nameOf?_of_mem_modelNames (ha : a ∈ g.modelNames) :
    (Naming.ofGraph g).nameOf? (.record, a) = some (g.className a) := by
  rw [← map_modelName_schemas] at ha
  obtain ⟨e, he, rfl⟩ := List.mem_map.1 ha
  rw [className_of_mem he]
  exact (Naming.apart_ofGraph g).nameOf?_record he

/-- Different model names have different classes. -/
theorem className_inj (ha : a ∈ g.modelNames) (hb : b ∈ g.modelNames)
    (h : g.className a = g.className b) : a = b := by
  have hsame := (Naming.apart_ofGraph g).injective (.record, a) (.record, b) (g.className a)
    (nameOf?_of_mem_modelNames ha) (h ▸ nameOf?_of_mem_modelNames hb)
  exact (Prod.mk.inj hsame).2

/-- The class of the schema of a node is that of its model name, whichever node named it first. -/
theorem className?_schema? (hn : n ∈ g.nodes) :
    (Naming.ofGraph g).className? n.schema? =
      (StructuredSchema.named? n.schema?).map (g.className ·.modelName) := by
  cases hschema : n.schema? with
  | none => rfl
  | some s =>
    by_cases hvoid : s.modelName = ""
    · simp [Naming.className?, StructuredSchema.named?, hvoid]
    · have hnamed : StructuredSchema.named? (some s) = some s := by
        simp [StructuredSchema.named?, hvoid]
      have hmem : s.modelName ∈ g.modelNames := by
        rw [modelNames, List.mem_eraseDups]
        refine List.mem_map_of_mem (List.mem_filterMap.2 ⟨n, hn, ?_⟩)
        rw [hschema, hnamed]
      rw [Naming.className?, if_neg hvoid, hnamed]
      exact nameOf?_of_mem_modelNames hmem

/-- The classes of a program are those of the model names, one by one, and each looks like the first
schema with that name. -/
theorem forall₂_classes {p : Program} (hb : Program.Built g links p) :
    List.Forall₂ (fun a c => ∃ s, g.namedSchemas.find? (·.modelName = a) = some s ∧
      c = Program.recordClass ⟨g.className a, s⟩) g.modelNames p.classes := by
  rw [hb.classes, ← map_modelName_schemas, List.forall₂_map_left_iff, List.forall₂_map_right_iff,
    List.forall₂_same]
  intro e he
  refine ⟨e.schema, (Naming.firsts_ofGraph g).first _ (List.mem_map_of_mem he), ?_⟩
  rw [className_of_mem he]

/-- The block is the declaration of the class of a model name, and nothing else.  It has the
description and the fields of the first schema with that name, in order: each field has a name of
its own, made from the display name, and its type, and its description is the comment behind it. -/
def DeclaredAs (g : Graph) (modelName : String) (b : Block) : Prop :=
  ∃ s fields, g.namedSchemas.find? (·.modelName = modelName) = some s ∧
    b.Declares (g.className modelName) ((unlessBlank s.description).map strippedLines)
      fields ∧
    fields.map (·.name) =
      (Identifier.issueAll Program.reservedFieldNames (Program.fieldRequests 0 s.fields)).1 ∧
    (fields.map (·.name)).Nodup ∧
    List.Forall₂ (fun f r => r.type = f.type ∧ r.isOptional = f.isOptional ∧
      r.note = (unlessBlank f.description).map comment) s.fields fields

/-- The class that is made of a schema declares it: the block has the name, the description and the
fields of the first schema with the model name. -/
theorem declaredAs_classBlock {modelName : String} {s : StructuredSchema}
    (hs : g.namedSchemas.find? (·.modelName = modelName) = some s) :
    g.DeclaredAs modelName
      (Program.classBlock (Program.recordClass ⟨g.className modelName, s⟩)) := by
  have hfields := Program.forall₂_recordFields Program.reservedFieldNames 0 s.fields
  have hnames : ((Program.recordClass ⟨g.className modelName, s⟩).fields.map
      Block.ofRecordField).map (·.name) =
        (Identifier.issueAll Program.reservedFieldNames (Program.fieldRequests 0 s.fields)).1 := by
    rw [List.map_map, ← Program.map_name_recordFields]
    rfl
  refine ⟨s, _, hs, Block.declares_classBlock fun r hr => ?_, hnames, ?_, ?_⟩
  · obtain ⟨-, -, -, husable, -⟩ := exists_left_of_forall₂ hfields hr
    exact husable.1
  · rw [hnames, ← Program.map_name_recordFields]
    exact (Program.nodup_map_name_recordFields _ _ _).1
  · rw [List.forall₂_map_right_iff]
    refine hfields.imp ?_
    rintro f r ⟨⟨htype, hoptional, hdescription⟩, -⟩
    exact ⟨htype, hoptional, by rw [← hdescription]; rfl⟩

/-- The blocks of the classes declare the model names, one by one. -/
theorem forall₂_declaredAs {p : Program} (hb : Program.Built g links p) :
    List.Forall₂ g.DeclaredAs g.modelNames (p.classes.map Program.classBlock) := by
  rw [List.forall₂_map_right_iff]
  refine (forall₂_classes hb).imp ?_
  rintro a c ⟨s, hs, rfl⟩
  exact declaredAs_classBlock hs

/-- No other classes are defined in the text.  The list has one class for each model name, in the
order in which the names come up. -/
theorem filter_record_defined {p : Program} {blocks : List Block} (hb : Program.Built g links p)
    (hread : List.Forall₂ Definition.ReadAs p.definitions blocks) :
    ((p.headBlocks ++ blocks ++ p.lastBlocks).flatMap Block.defined).filter (·.1 = .record) =
      g.modelNames.map fun a => (.record, g.className a) := by
  have hmain : (if p.hasMain then [(p.mainForm, "main")] else []).filter (·.1 = .record) = [] := by
    have hform : p.mainForm ≠ .record := by
      unfold Program.mainForm
      split <;> simp
    split <;> simp [hform]
  -- the form of a definition tells classes from all others
  have hdefinitions : (p.definitions.map fun d => (d.role.form, d.name)).filter (·.1 = .record) =
      p.classes.map fun c => (.record, c.name) := by
    simp [Program.definitions, List.filter_map, List.filter_flatMap, Definition.role, Role.form,
      Definition.name, Function.comp_def]
  have hclasses : (p.classes.map fun c => (Block.Form.record, c.name)) =
      g.modelNames.map fun a => (.record, g.className a) := by
    rw [← List.forall₂_eq_eq_eq, List.forall₂_map_left_iff, List.forall₂_map_right_iff]
    refine (forall₂_classes hb).flip.imp ?_
    rintro c a ⟨s, -, rfl⟩
    rfl
  rw [Program.flatMap_defined_of_makes hread, List.filter_append, hmain, List.append_nil,
    hdefinitions, hclasses]

/-! ### Types of answers -/

/-- The blocks of a text make the agent or checker of a node by one call, which gives the class of
the node's schema as the type of the answers, if there is such a class, and no type otherwise. -/
def TypedAs (g : Graph) (role : Role) (blocks : List Block) (n : Node) : Prop :=
  ∃ c, Block.CalledOnce blocks c ∧ (Naming.ofGraph g).nameOf? (role, n.id) = some c.name ∧
    (c.arguments.map (·.1)).Nodup ∧
    c.arguments.lookup "output_type" =
      (StructuredSchema.named? n.schema?).map fun s => .name (g.className s.modelName)

section Types

variable {p : Program} {blocks : List Block}

/-- The agents of a graph are made with the types of their answers. -/
theorem typedAs_agent (hb : Program.Built g links p) (hlinks : g.links = .ok links)
    (hnodup : g.nodeIds.Nodup) (hemitted : List.Forall₂ Definition.EmittedAs p.definitions blocks)
    (hn : n ∈ g.nodesOfKind .agent) :
    g.TypedAs .agent (p.headBlocks ++ blocks ++ p.lastBlocks) n := by
  obtain ⟨d, a, hpayload, ha, hdefinition⟩ := hb.exists_agentDefinition hnodup hn
  obtain ⟨hname, -, -, htype, -⟩ := Program.nameOf?_of_agentDefinition hdefinition
  obtain ⟨-, -, hlookup, -⟩ := Block.lookup_agentArguments a
  have hschema : d.outputSchema = n.schema? := by rw [Node.schema?, hpayload]
  refine ⟨_, hb.calledOnce_agent hlinks hnodup hemitted ha, hname, Block.nodup_agentArguments a, ?_⟩
  rw [hlookup, htype, hschema, className?_schema? (List.mem_filter.1 hn).1, Option.map_map]
  rfl

/-- The checkers of the guardrails of a graph are made with the types of their answers. -/
theorem typedAs_checker (hb : Program.Built g links p) (hlinks : g.links = .ok links)
    (hnodup : g.nodeIds.Nodup) (hemitted : List.Forall₂ Definition.EmittedAs p.definitions blocks)
    (hn : n ∈ g.nodesOfKind .guardrail) :
    g.TypedAs .checker (p.headBlocks ++ blocks ++ p.lastBlocks) n := by
  have hselected := Program.selects_guardrail.forall₂ (k := .guardrail)
    (fun p => by cases p <;> simp [Payload.kind]) g.nodes
  obtain ⟨x, hx, hid, hpayload⟩ := exists_right_of_forall₂ hselected hn
  obtain ⟨q, hq, hguardrail⟩ := exists_right_of_forall₂ hb.guardrails hx
  obtain ⟨hname, -, htype, -⟩ := Program.nameOf?_of_guardrail hguardrail
  have hschema : x.2.checkerSchema = n.schema? := by rw [Node.schema?, hpayload]
  refine ⟨_, hb.calledOnce_checker hlinks hnodup hemitted hq, hid ▸ hname,
    Block.nodup_checkerArguments q.1, ?_⟩
  rw [Block.lookup_checkerArguments, htype, hschema, className?_schema? (List.mem_filter.1 hn).1,
    Option.map_map]
  rfl

end Types

/-- **One class for each model name, and the right one for each agent.**  A graph whose ids are all
different and whose edges all have their ends has a program, and the text of the program is made of
blocks.  The first of them behind the head are declarations of the classes of the model names, in
the order of their first occurrence.  Each has the description and the fields of the first schema
with its name.  No other class is defined anywhere in the text, and no two model names share a
class.  Every agent and every checker is made by exactly one call in the text.  The call gives the
class of the node's own model name as the type of the answers, or no type if there is no model
name. -/
theorem generate_records (hnodup : g.nodeIds.Nodup) (hclosed : g.Closed) (m : Metadata) :
    ∃ p classes later, Program.build g m = .ok p ∧ g.generate m = .ok p.render ∧
      Block.Makes p.headBlocks (classes ++ later ++ p.lastBlocks) p.render ∧
      List.Forall₂ g.DeclaredAs g.modelNames classes ∧
      ((p.headBlocks ++ (classes ++ later) ++ p.lastBlocks).flatMap Block.defined).filter
        (·.1 = .record) = g.modelNames.map (fun a => (.record, g.className a)) ∧
      (∀ a ∈ g.modelNames, ∀ b ∈ g.modelNames, g.className a = g.className b → a = b) ∧
      (∀ n ∈ g.nodesOfKind .agent,
        g.TypedAs .agent (p.headBlocks ++ (classes ++ later) ++ p.lastBlocks) n) ∧
      (∀ n ∈ g.nodesOfKind .guardrail,
        g.TypedAs .checker (p.headBlocks ++ (classes ++ later) ++ p.lastBlocks) n) := by
  obtain ⟨links, p, hlinks, hbuild, hb⟩ := Program.exists_built hclosed hnodup m
  obtain ⟨later, hblocks, hemitted⟩ := p.forall₂_laterBlocks
  refine ⟨p, _, later, hbuild, generate_of_build hbuild, hblocks ▸ p.makes_render,
    forall₂_declaredAs hb, ?_, fun a ha b hb => className_inj ha hb, ?_, ?_⟩
  · exact filter_record_defined hb (hb.forall₂_readAs hlinks (fun _ hd => hd) hemitted)
  · exact fun n hn => typedAs_agent hb hlinks hnodup hemitted hn
  · exact fun n hn => typedAs_checker hb hlinks hnodup hemitted hn

/-- A guardrail and agents with model names that read alike, that occur twice, and that are
blank or empty. -/
def panel : Graph :=
  let fair : SchemaField := { name := "Fair", type := .boolean }
  let score : SchemaField := { name := "Score", type := .number }
  { nodes := [
      ⟨"g", none, .guardrail { name := "Gate", checkerSchema := some ⟨"Verdict", none, [fair]⟩ }⟩,
      ⟨"t", none, .functionTool { name := "verdict 1" }⟩,
      ⟨"a", none, .agent { name := "Ann", outputSchema := some ⟨"verdict!", none, []⟩ }⟩,
      ⟨"b", none, .agent { name := "Ben", outputSchema := some ⟨"Verdict", none, [score]⟩ }⟩,
      ⟨"c", none, .agent { name := "Cat", outputSchema := some ⟨"", none, [score]⟩ }⟩,
      ⟨"d", none, .agent { name := "Dan", outputSchema := some ⟨" ", none, []⟩ }⟩]
    edges := [⟨"1", "b", "a"⟩, ⟨"2", "g", "a"⟩] }

/-- The second agent shares the class of the guardrail, which has the field that the guardrail gave
it; the class of the first agent is another one, and evades the tool too.  The third agent has no
class, and a blank model name makes one. -/
theorem generate_records_panel :
    panel.nodeIds.Nodup ∧ panel.Closed ∧ panel.modelNames = ["Verdict", "verdict!", " "] ∧
      panel.modelNames.map panel.className = ["verdict", "verdict_2", "model_d_model"] ∧
      ∃ (p : Program) (classes later : List Block), panel.generate = .ok p.render ∧
        Block.Makes p.headBlocks (classes ++ later ++ p.lastBlocks) p.render ∧
        List.Forall₂ panel.DeclaredAs ["Verdict", "verdict!", " "] classes ∧
        (∀ n ∈ panel.nodesOfKind .agent,
          panel.TypedAs .agent (p.headBlocks ++ (classes ++ later) ++ p.lastBlocks) n) ∧
        (∀ n ∈ panel.nodesOfKind .guardrail,
          panel.TypedAs .checker (p.headBlocks ++ (classes ++ later) ++ p.lastBlocks) n) ∧
        (panel.namedSchemas.find? (·.modelName = "Verdict")).map (·.fields.map (·.name)) =
          some ["Fair"] ∧
        p.agents.map (·.outputType) =
          [some "verdict_2", some "verdict", none, some "model_d_model"] := by
  have hnodup : panel.nodeIds.Nodup := by decide
  have hclosed : panel.Closed := checkReferences_eq_ok_iff.1 rfl
  have hnames : panel.modelNames = ["Verdict", "verdict!", " "] := by decide +kernel
  obtain ⟨p, classes, later, hbuild, hgenerate, hmakes, hclasses, -, -, hagents, hcheckers⟩ :=
    generate_records hnodup hclosed {}
  have htypes : (Program.build panel {}).toOption.map (·.agents.map (·.outputType)) =
      some [some "verdict_2", some "verdict", none, some "model_d_model"] := by
    decide +kernel
  rw [hbuild] at htypes
  rw [hnames] at hclasses
  exact ⟨hnodup, hclosed, hnames, by decide +kernel, p, classes, later, hgenerate, hmakes, hclasses,
    hagents, hcheckers, by decide, Option.some.inj htypes⟩

end Graph
end AgentFlow

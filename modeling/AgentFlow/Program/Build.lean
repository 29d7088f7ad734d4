import AgentFlow.Program.Basic
import AgentFlow.Program.Naming
import AgentFlow.Program.Wiring

/-!
# The program of a workflow

Building a program needs every edge to end at two nodes.  All names are given before the first
definition is made.

## Main definitions

* `CompileError`, `CompileError.message`: why there is no program.
* `Program.build`: the program of a graph.
-/

namespace AgentFlow

/-- Why a graph has no program. -/
inductive CompileError where
  /-- An edge ends nowhere. -/
  | unresolved (reference : UnresolvedReference)
  /-- A node was given no name. -/
  | unnamed (id : NodeId)
  deriving DecidableEq, Repr

/-- The message for users. -/
def CompileError.message : CompileError → String
  | .unresolved r => r.message
  | .unnamed id => "Node " ++ id ++ " has no name"

namespace Program

/-- The name that a node was given. -/
def named (id : NodeId) : Option String → Except CompileError String
  | some name => .ok name
  | none => .error (.unnamed id)

/-- A seed: the id if there is one that is not empty, else the index. -/
def seedOr (id : Option String) (index : Nat) : String :=
  match id with
  | some s => if s = "" then toString index else s
  | none => toString index

/-! ### Fields and parameters -/

/-- Names that no field of a record class may have. -/
def reservedFieldNames : Identifier.Namespace := ["model_config"]

/-- The fields of a class from an index on. -/
def recordFields (taken : Identifier.Namespace) : Nat → List SchemaField → List RecordField
  | _, [] => []
  | i, f :: fs =>
    let (name, taken) := Identifier.issue taken (some f.name) "field" (some (seedOr f.id i))
    { name, type := f.type, isOptional := f.isOptional, description := f.description } ::
      recordFields taken (i + 1) fs

/-- The parameters of a function from an index on. -/
def parameters (taken : Identifier.Namespace) : Nat → List ToolParameter → List (String × ValueType)
  | _, [] => []
  | i, p :: ps =>
    let (name, taken) := Identifier.issue taken (some p.name) "param" (some (seedOr p.id i))
    (name, p.type) :: parameters taken (i + 1) ps

/-! ### Definitions -/

/-- The class of a schema. -/
def recordClass (e : SchemaEntry) : RecordClass :=
  { name := e.className
    description := e.schema.description
    fields := recordFields reservedFieldNames 0 e.schema.fields }

/-- The function of a tool. -/
def toolFunction (names : Naming) (id : NodeId) (d : ToolData) :
    Except CompileError ToolFunction := do
  let name ← named id (names.tool? id)
  return { name
           parameters := parameters [] 0 d.parameters
           returnType := d.returnType
           description := d.description
           implementation := d.implementation }

/-- The two definitions of a guardrail. -/
def guardrail (names : Naming) (id : NodeId) (d : GuardrailData) :
    Except CompileError (Checker × Guard) := do
  let checker ← named id (names.checker? id)
  let name ← named id (names.guard? id)
  let outputType := names.className? d.checkerSchema
  return ({ name := checker, label := d.name, instructions := d.checkerInstructions, outputType },
    { name, label := d.name, side := d.side, description := d.description
      tripwireLogic := d.tripwireLogic, checker, outputType })

/-- The names of the guardrails of one side that watch an agent. -/
def guardrailNames (names : Naming) (links : List Link) (id : NodeId) (side : GuardrailSide) :
    Except CompileError (List String) :=
  let watching := (Wiring.sources links id .guardrail).filter fun n =>
    match n.payload with
    | .guardrail d => d.side = side
    | _ => false
  watching.mapM fun n => named n.id (names.guard? n.id)

/-- The definition of an agent. -/
def agentDefinition (names : Naming) (links : List Link) (id : NodeId) (d : AgentData) :
    Except CompileError AgentDefinition := do
  let name ← named id (names.agent? id)
  let tools ← (Wiring.sources links id .functionTool).mapM fun n => named n.id (names.tool? n.id)
  let handoffs ← (Wiring.handoffs links id).mapM fun t => named t (names.agent? t)
  let inputGuardrails ← guardrailNames names links id .input
  let outputGuardrails ← guardrailNames names links id .output
  return { name, label := d.name, instructions := d.instructions, tools, handoffs
           outputType := names.className? d.outputSchema
           inputGuardrails, outputGuardrails
           handoffDescription := d.handoffDescription }

/-- What the main function does for a runner. -/
def stanza (names : Naming) (links : List Link) (id : NodeId) (d : RunnerData) :
    Except CompileError Stanza :=
  match Wiring.runnerAgent? links id with
  | none => .ok (.idle d.name)
  | some a => do
    let agent ← named a (names.agent? a)
    return .call agent d.input d.context d.executionMode

/-! ### Nodes by kind -/

/-- The function tools of a graph, in order. -/
def toolNodes (g : Graph) : List (NodeId × ToolData) :=
  g.nodes.filterMap fun n =>
    match n.payload with
    | .functionTool d => some (n.id, d)
    | _ => none

/-- The guardrails of a graph, in order. -/
def guardrailNodes (g : Graph) : List (NodeId × GuardrailData) :=
  g.nodes.filterMap fun n =>
    match n.payload with
    | .guardrail d => some (n.id, d)
    | _ => none

/-- The agents of a graph, in order. -/
def agentNodes (g : Graph) : List (NodeId × AgentData) :=
  g.nodes.filterMap fun n =>
    match n.payload with
    | .agent d => some (n.id, d)
    | _ => none

/-- The runners of a graph, in order. -/
def runnerNodes (g : Graph) : List (NodeId × RunnerData) :=
  g.nodes.filterMap fun n =>
    match n.payload with
    | .runner d => some (n.id, d)
    | _ => none

/-- The agents in the order in which they are defined: the order of the nodes, but an agent waits
until the agents it hands off to are defined. -/
def agentOrder (g : Graph) (links : List Link) : List (NodeId × AgentData) :=
  Wiring.arrange (Wiring.handoffs links) [] (agentNodes g)

/-- The program of a graph. -/
def build (g : Graph) (metadata : Metadata) : Except CompileError Program := do
  let links ← g.links.mapError .unresolved
  let names := Naming.ofGraph g
  let tools ← (toolNodes g).mapM fun (id, d) => toolFunction names id d
  let guardrails ← (guardrailNodes g).mapM fun (id, d) => guardrail names id d
  let agents ← (agentOrder g links).mapM fun (id, d) => agentDefinition names links id d
  let stanzas ← (runnerNodes g).mapM fun (id, d) => stanza names links id d
  return { metadata, classes := names.schemas.map recordClass, tools, guardrails, agents, stanzas
           nodeCount := g.nodes.length, edgeCount := g.edges.length }

end Program

end AgentFlow

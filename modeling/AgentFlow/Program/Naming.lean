import AgentFlow.Identifier
import AgentFlow.Workflow.Graph

/-!
# Names of definitions

Before a program is built every definition gets its name, all from one namespace and in the order
of the nodes, so that definitions can refer to each other freely.

## Main definitions

* `SchemaEntry`, `Naming`: the names that were given.
* `Naming.ofGraph`: names everything in a graph.
* `Naming.tool?`, `Naming.agent?`, `Naming.checker?`, `Naming.guard?`, `Naming.className?`.
-/

namespace AgentFlow

/-- A structured schema with the name of its class. -/
structure SchemaEntry where
  /-- Name of the class. -/
  className : String
  /-- The schema. -/
  schema : StructuredSchema
  deriving DecidableEq, Repr

/-- The names of all definitions. -/
structure Naming where
  /-- The names that are taken. -/
  taken : Identifier.Namespace := Identifier.moduleNames
  /-- Names of tool functions; the latest first. -/
  tools : List (NodeId × String) := []
  /-- Names of agents; the latest first. -/
  agents : List (NodeId × String) := []
  /-- Names of checker agents; the latest first. -/
  checkers : List (NodeId × String) := []
  /-- Names of guardrail functions; the latest first. -/
  guards : List (NodeId × String) := []
  /-- Schemas by model name, in the order of their first occurrence. -/
  schemas : List SchemaEntry := []
  deriving Repr

namespace Naming

/-- The entry of a model name. -/
def entry? (n : Naming) (modelName : String) : Option SchemaEntry :=
  n.schemas.find? (·.schema.modelName = modelName)

/-- Names the class of a schema, unless the schema has no model name or one that was met
before. -/
def addSchema (n : Naming) (schema : Option StructuredSchema) (stem seed : String) : Naming :=
  match schema with
  | none => n
  | some s =>
    if s.modelName = "" then n
    else
      match n.entry? s.modelName with
      | some _ => n
      | none =>
        let (className, taken) := Identifier.issue n.taken (some s.modelName) stem (some seed)
        { n with taken, schemas := n.schemas ++ [{ className, schema := s }] }

/-- Names the definitions of a node. -/
def addNode (n : Naming) (node : Node) : Naming :=
  match node.payload with
  | .functionTool d =>
    let (name, taken) := Identifier.issue n.taken (some d.name) "tool" (some node.id)
    { n with taken, tools := (node.id, name) :: n.tools }
  | .agent d =>
    let (name, taken) := Identifier.issue n.taken (some d.name) "agent" (some node.id)
    { n with taken, agents := (node.id, name) :: n.agents }.addSchema d.outputSchema "model"
      (node.id ++ "_model")
  | .guardrail d =>
    let (checker, taken) := Identifier.issue n.taken (some d.checkerName) "guard_agent"
      (some (node.id ++ "_internal_agent"))
    let (guardName, taken) := Identifier.issue taken (some d.name) "guard_func"
      (some (node.id ++ "_guard_func"))
    { n with
      taken
      checkers := (node.id, checker) :: n.checkers
      guards := (node.id, guardName) :: n.guards }.addSchema d.checkerSchema "guard_model"
        (node.id ++ "_internal_model")
  | .runner _ => n
  | .input _ => n

/-- Names the definitions of all nodes, in order. -/
def ofGraph (g : Graph) : Naming :=
  g.nodes.foldl addNode {}

/-- The name of a tool function. -/
def tool? (n : Naming) (id : NodeId) : Option String := n.tools.lookup id

/-- The name of an agent. -/
def agent? (n : Naming) (id : NodeId) : Option String := n.agents.lookup id

/-- The name of a checker agent. -/
def checker? (n : Naming) (id : NodeId) : Option String := n.checkers.lookup id

/-- The name of a guardrail function. -/
def guard? (n : Naming) (id : NodeId) : Option String := n.guards.lookup id

/-- The name of the class of a schema; a schema without a model name has none. -/
def className? (n : Naming) : Option StructuredSchema → Option String
  | none => none
  | some s => if s.modelName = "" then none else (n.entry? s.modelName).map (·.className)

end Naming

end AgentFlow

import AgentFlow.Workflow.Payload

/-!
# Programs

An emitted program as data: its definitions in order, the names they refer to, and the stanzas
of its main function.  The text of a program is a matter of `AgentFlow.Program.Render`.

## Main definitions

* `RecordClass`, `ToolFunction`, `Checker`, `Guard`, `AgentDefinition`: the definitions.
* `Stanza`: what the main function does for a runner.
* `Program`: a whole program; `Program.isAwaited`, `Program.hasMain`, `Program.isEmpty`.
-/

namespace AgentFlow

/-- A field of a record class. -/
structure RecordField where
  /-- Name of the field. -/
  name : String
  /-- Declared type. -/
  type : ValueType
  /-- The field may be left out. -/
  isOptional : Bool
  /-- What the field is for. -/
  description : Option String
  deriving DecidableEq, Repr

/-- The class of a structured schema. -/
structure RecordClass where
  /-- Name of the class. -/
  name : String
  /-- What the record is for. -/
  description : Option String
  /-- The fields, in order. -/
  fields : List RecordField
  deriving DecidableEq, Repr

/-- The function of a tool. -/
structure ToolFunction where
  /-- Name of the function. -/
  name : String
  /-- Names and types of the parameters. -/
  parameters : List (String × ValueType)
  /-- Type of the result. -/
  returnType : ValueType
  /-- What the function is for. -/
  description : Option String
  /-- The body. -/
  implementation : String
  deriving DecidableEq, Repr

/-- The agent that a guardrail asks. -/
structure Checker where
  /-- Name of the agent. -/
  name : String
  /-- Display name of the guardrail. -/
  label : String
  /-- What the agent is told to do. -/
  instructions : String
  /-- Class of its answers. -/
  outputType : Option String
  deriving DecidableEq, Repr

/-- The function of a guardrail. -/
structure Guard where
  /-- Name of the function. -/
  name : String
  /-- Display name of the guardrail. -/
  label : String
  /-- Which side of the agent is watched. -/
  side : GuardrailSide
  /-- What the guardrail is for. -/
  description : Option String
  /-- Condition on the checker's answer. -/
  tripwireLogic : String
  /-- Name of the agent that is asked. -/
  checker : String
  /-- Class of that agent's answers. -/
  outputType : Option String
  deriving DecidableEq, Repr

/-- The definition of an agent. -/
structure AgentDefinition where
  /-- Name of the agent. -/
  name : String
  /-- Display name. -/
  label : String
  /-- What the agent is told to do. -/
  instructions : String
  /-- Functions it may call. -/
  tools : List String
  /-- Agents it may hand off to. -/
  handoffs : List String
  /-- Class of its answers. -/
  outputType : Option String
  /-- Guardrails on what it is given. -/
  inputGuardrails : List String
  /-- Guardrails on what it answers. -/
  outputGuardrails : List String
  /-- What other agents are told about it. -/
  handoffDescription : Option String
  deriving DecidableEq, Repr

/-- What the main function does for a runner. -/
inductive Stanza where
  /-- Runs an agent. -/
  | call (agent : String) (input : String) (context : Option String) (mode : ExecutionMode)
  /-- Notes that the runner has no agent to run. -/
  | idle (label : String)
  deriving DecidableEq, Repr

/-- The stanza runs an agent. -/
def Stanza.isCall : Stanza → Bool
  | .call _ _ _ _ => true
  | .idle _ => false

/-- The stanza runs an agent inside an event loop. -/
def Stanza.isAsync : Stanza → Bool
  | .call _ _ _ .async => true
  | _ => false

/-- Name and description of a workflow, for the head of the program. -/
structure Metadata where
  /-- Name of the workflow. -/
  name : Option String := none
  /-- Description of the workflow. -/
  description : Option String := none
  deriving DecidableEq, Repr

/-- A program. -/
structure Program where
  /-- Name and description of the workflow. -/
  metadata : Metadata
  /-- Classes of structured schemas. -/
  classes : List RecordClass
  /-- Functions of tools. -/
  tools : List ToolFunction
  /-- Guardrails, each with the agent that it asks. -/
  guardrails : List (Checker × Guard)
  /-- Agents. -/
  agents : List AgentDefinition
  /-- The main function, runner by runner. -/
  stanzas : List Stanza
  /-- Number of nodes of the workflow. -/
  nodeCount : Nat
  /-- Number of edges of the workflow. -/
  edgeCount : Nat
  deriving DecidableEq, Repr

namespace Program

/-- A main function is emitted. -/
def hasMain (p : Program) : Bool := p.stanzas.any Stanza.isCall

/-- The main function awaits its runs. -/
def isAwaited (p : Program) : Bool := p.stanzas.any Stanza.isAsync

/-- There is nothing to execute. -/
def isEmpty (p : Program) : Bool :=
  p.tools.isEmpty && p.guardrails.isEmpty && p.agents.isEmpty && !p.hasMain

end Program

end AgentFlow

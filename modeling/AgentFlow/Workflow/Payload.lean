import AgentFlow.Workflow.Kind

/-!
# Payloads

What a node holds besides its place in the graph.  Every payload has a heading, the display name
and whether the editor shows the node expanded; the rest depends on the kind.

## Main definitions

* `SchemaField`, `StructuredSchema`, `ToolParameter`: parts of payloads.
* `Heading`, `AgentData`, `RunnerData`, `ToolData`, `InputData`, `GuardrailData`.
* `Payload`, `Payload.kind`: a payload of any kind.
* `Payload.withMessage`, `Payload.withInput`, `Payload.toggled`: edits.
-/

namespace AgentFlow

/-- A field of a structured schema. -/
structure SchemaField where
  /-- Identifier given by the editor. -/
  id : Option String := none
  /-- Display name. -/
  name : String := ""
  /-- Declared type. -/
  type : ValueType := .string
  /-- The field may be left out. -/
  isOptional : Bool := false
  /-- What the field is for. -/
  description : Option String := none
  deriving DecidableEq, Repr, Inhabited

/-- A named record type that an agent's answer must fit. -/
structure StructuredSchema where
  /-- Name of the record type; an empty name means that there is none. -/
  modelName : String := ""
  /-- What the record is for. -/
  description : Option String := none
  /-- The fields, in order. -/
  fields : List SchemaField := []
  deriving DecidableEq, Repr, Inhabited

/-- A parameter of a function tool. -/
structure ToolParameter where
  /-- Identifier given by the editor. -/
  id : Option String := none
  /-- Display name. -/
  name : String := ""
  /-- Declared type. -/
  type : ValueType := .string
  deriving DecidableEq, Repr, Inhabited

/-- What every payload has. -/
structure Heading where
  /-- Display name. -/
  name : String := ""
  /-- The editor shows the node expanded. -/
  isExpanded : Bool := false
  deriving DecidableEq, Repr, Inhabited

/-- The payload of an agent. -/
structure AgentData extends Heading where
  /-- What the agent is told to do. -/
  instructions : String := ""
  /-- What other agents are told about it. -/
  handoffDescription : Option String := none
  /-- The record type of its answers. -/
  outputSchema : Option StructuredSchema := none
  deriving DecidableEq, Repr, Inhabited

/-- The payload of a runner. -/
structure RunnerData extends Heading where
  /-- The message that the run starts with. -/
  input : String := ""
  /-- How the agent is executed. -/
  executionMode : ExecutionMode := .sync
  /-- Expression for the context of the run. -/
  context : Option String := none
  deriving DecidableEq, Repr, Inhabited

/-- The payload of a function tool. -/
structure ToolData extends Heading where
  /-- What the function is for. -/
  description : Option String := none
  /-- The parameters, in order. -/
  parameters : List ToolParameter := []
  /-- Type of the result. -/
  returnType : ValueType := .string
  /-- The body of the function. -/
  implementation : String := ""
  deriving DecidableEq, Repr, Inhabited

/-- The payload of an input. -/
structure InputData extends Heading where
  /-- The message for the runners downstream. -/
  message : String := ""
  deriving DecidableEq, Repr, Inhabited

/-- The payload of a guardrail. -/
structure GuardrailData extends Heading where
  /-- Which side of the agent is watched. -/
  side : GuardrailSide := .input
  /-- What the guardrail is for. -/
  description : Option String := none
  /-- Display name of the checker agent. -/
  checkerName : String := ""
  /-- What the checker agent is told to do. -/
  checkerInstructions : String := ""
  /-- The record type of the checker's answers. -/
  checkerSchema : Option StructuredSchema := none
  /-- Expression on the checker's answer that trips the guardrail. -/
  tripwireLogic : String := ""
  deriving DecidableEq, Repr, Inhabited

/-- A payload of any kind. -/
inductive Payload where
  /-- An agent. -/
  | agent (data : AgentData)
  /-- A runner. -/
  | runner (data : RunnerData)
  /-- A function tool. -/
  | functionTool (data : ToolData)
  /-- An input. -/
  | input (data : InputData)
  /-- A guardrail. -/
  | guardrail (data : GuardrailData)
  deriving DecidableEq, Repr, Inhabited

namespace Payload

/-- The kind of node that a payload makes. -/
def kind : Payload → Kind
  | .agent _ => .agent
  | .runner _ => .runner
  | .functionTool _ => .functionTool
  | .input _ => .input
  | .guardrail _ => .guardrail

/-- The heading of a payload. -/
def heading : Payload → Heading
  | .agent d => d.toHeading
  | .runner d => d.toHeading
  | .functionTool d => d.toHeading
  | .input d => d.toHeading
  | .guardrail d => d.toHeading

/-- The payload with another heading. -/
def withHeading (h : Heading) : Payload → Payload
  | .agent d => .agent { d with toHeading := h }
  | .runner d => .runner { d with toHeading := h }
  | .functionTool d => .functionTool { d with toHeading := h }
  | .input d => .input { d with toHeading := h }
  | .guardrail d => .guardrail { d with toHeading := h }

/-- The payload shown expanded if it was not, and the other way round. -/
def toggled (p : Payload) : Payload :=
  p.withHeading { p.heading with isExpanded := !p.heading.isExpanded }

/-- The payload with another message; only inputs have one. -/
def withMessage (message : String) : Payload → Payload
  | .input d => .input { d with message }
  | p => p

/-- The payload with another start message; only runners have one. -/
def withInput (input : String) : Payload → Payload
  | .runner d => .runner { d with input }
  | p => p

/-- The message of an input. -/
def message? : Payload → Option String
  | .input d => some d.message
  | _ => none

@[simp] theorem kind_withHeading (h : Heading) (p : Payload) : (p.withHeading h).kind = p.kind := by
  cases p <;> rfl

@[simp] theorem heading_withHeading (h : Heading) (p : Payload) :
    (p.withHeading h).heading = h := by
  cases p <;> rfl

@[simp] theorem kind_toggled (p : Payload) : p.toggled.kind = p.kind :=
  kind_withHeading _ _

@[simp] theorem kind_withMessage (m : String) (p : Payload) : (p.withMessage m).kind = p.kind := by
  cases p <;> rfl

@[simp] theorem kind_withInput (m : String) (p : Payload) : (p.withInput m).kind = p.kind := by
  cases p <;> rfl

end Payload

end AgentFlow

/-!
# Kinds and other choices

The closed sets of choices in a workflow: the kinds of nodes, the declared types of values, how a
runner executes, and which side of an agent a guardrail watches.  Each choice has the name under
which it is saved.

## Main definitions

* `Choice`: a closed set of named choices, with `Choice.ofName?`.
* `Kind`, `ValueType`, `ExecutionMode`, `GuardrailSide`.
-/

namespace AgentFlow

/-- A closed set of choices, each with a name. -/
class Choice (α : Type) where
  /-- All choices, in the order in which they are listed to users. -/
  all : List α
  /-- The name under which a choice is saved. -/
  name : α → String

namespace Choice

variable {α : Type} [Choice α]

/-- The choice with a name. -/
def ofName? (s : String) : Option α :=
  (all (α := α)).find? fun a => name a = s

/-- The names of all choices. -/
def names (α : Type) [Choice α] : List String :=
  (all (α := α)).map name

end Choice

/-- The kinds of nodes. -/
inductive Kind where
  /-- A language-model agent. -/
  | agent
  /-- Runs the agent it is connected to. -/
  | runner
  /-- A function that agents may call. -/
  | functionTool
  /-- The message that a run starts with. -/
  | input
  /-- A check on what goes into or comes out of an agent. -/
  | guardrail
  deriving DecidableEq, Repr, Inhabited

/-- The name under which a kind is saved. -/
def Kind.name : Kind → String
  | .agent => "agent"
  | .runner => "runner"
  | .functionTool => "functionTool"
  | .input => "input"
  | .guardrail => "guardrail"

instance : Choice Kind where
  all := [.agent, .runner, .functionTool, .input, .guardrail]
  name := Kind.name

/-- The declared types of parameters, results and schema fields. -/
inductive ValueType where
  /-- Text. -/
  | string
  /-- A number. -/
  | number
  /-- A truth value. -/
  | boolean
  /-- A list. -/
  | list
  /-- A dictionary. -/
  | dict
  /-- No value. -/
  | nothing
  deriving DecidableEq, Repr, Inhabited

/-- The name under which a value type is saved. -/
def ValueType.name : ValueType → String
  | .string => "string"
  | .number => "number"
  | .boolean => "boolean"
  | .list => "list"
  | .dict => "dict"
  | .nothing => "none"

instance : Choice ValueType where
  all := [.string, .number, .boolean, .list, .dict, .nothing]
  name := ValueType.name

/-- How a runner executes its agent. -/
inductive ExecutionMode where
  /-- The program waits. -/
  | sync
  /-- The program awaits the run inside an event loop. -/
  | async
  deriving DecidableEq, Repr, Inhabited

/-- The name under which an execution mode is saved. -/
def ExecutionMode.name : ExecutionMode → String
  | .sync => "sync"
  | .async => "async"

instance : Choice ExecutionMode where
  all := [.sync, .async]
  name := ExecutionMode.name

/-- Which side of an agent a guardrail watches. -/
inductive GuardrailSide where
  /-- What the agent is given. -/
  | input
  /-- What the agent answers. -/
  | output
  deriving DecidableEq, Repr, Inhabited

/-- The name under which a side is saved. -/
def GuardrailSide.name : GuardrailSide → String
  | .input => "input"
  | .output => "output"

instance : Choice GuardrailSide where
  all := [.input, .output]
  name := GuardrailSide.name

/-- A kind is found under its name. -/
theorem Kind.ofName?_name (k : Kind) : Choice.ofName? k.name = some k := by
  cases k <;> decide

/-- A value type is found under its name. -/
theorem ValueType.ofName?_name (t : ValueType) : Choice.ofName? t.name = some t := by
  cases t <;> decide

/-- An execution mode is found under its name. -/
theorem ExecutionMode.ofName?_name (m : ExecutionMode) : Choice.ofName? m.name = some m := by
  cases m <;> decide

/-- A side is found under its name. -/
theorem GuardrailSide.ofName?_name (s : GuardrailSide) : Choice.ofName? s.name = some s := by
  cases s <;> decide

end AgentFlow

import AgentFlow.Connection.Cycle

/-!
# Drawing an edge

An edge may be drawn if its kinds fit, the input it leaves has no other edge, the runner it enters
has no other edge, and it closes no circle.

## Main definitions

* `Kind.mayConnect`: the pairs of kinds that fit.
* `Refusal`, `Refusal.reason`, `Refusal.message`: why an edge may not be drawn.
* `checkConnection`: decides about an edge.
-/

namespace AgentFlow

/-- An edge may lead from the first kind to the second. -/
def Kind.mayConnect : Kind → Kind → Bool
  | .input, .agent => true
  | .functionTool, .agent => true
  | .agent, .agent => true
  | .agent, .runner => true
  | .guardrail, .agent => true
  | _, _ => false

/-- Why two kinds do not fit, for users. -/
def Kind.incompatibleMessage (source target : Kind) : String :=
  if source = .agent ∧ target = .functionTool then
    "Connect from the Function Tool node to the Agent node, not the other way around"
  else if source = .input then "Input nodes can only connect to Agent nodes"
  else "Connection " ++ source.name ++ " -> " ++ target.name ++ " is not allowed"

/-- Why an edge may not be drawn. -/
inductive Refusal where
  /-- The kinds do not fit. -/
  | incompatible (source target : Kind)
  /-- The input has an outgoing edge already. -/
  | inputTaken
  /-- The runner has an incoming edge already. -/
  | runnerTaken
  /-- The edge would close a circle. -/
  | cyclic
  deriving DecidableEq, Repr

/-- The classes of reasons that users are told. -/
inductive Reason where
  /-- The kinds do not fit. -/
  | incompatibleKinds
  /-- A node would have too many edges. -/
  | fanLimitExceeded
  /-- There would be a circle. -/
  | cyclicConnection
  deriving DecidableEq, Repr

/-- The code of a reason. -/
def Reason.code : Reason → String
  | .incompatibleKinds => "IncompatibleKinds"
  | .fanLimitExceeded => "FanLimitExceeded"
  | .cyclicConnection => "CyclicConnection"

/-- The reason of a refusal. -/
def Refusal.reason : Refusal → Reason
  | .incompatible _ _ => .incompatibleKinds
  | .inputTaken => .fanLimitExceeded
  | .runnerTaken => .fanLimitExceeded
  | .cyclic => .cyclicConnection

/-- The message of a refusal. -/
def Refusal.message : Refusal → String
  | .incompatible s t => s.incompatibleMessage t
  | .inputTaken => "Input nodes can only have one outgoing connection"
  | .runnerTaken => "Runner nodes can only have one incoming connection"
  | .cyclic => "Connection would create a cycle"

/-- Decides whether an edge may be drawn between two nodes; `none` means that it may. -/
def checkConnection (source target : Node) (edges : List Edge) : Option Refusal :=
  if ¬ source.kind.mayConnect target.kind then some (.incompatible source.kind target.kind)
  else if source.kind = .input ∧ edges.any (·.source = source.id) then some .inputTaken
  else if target.kind = .runner ∧ edges.any (·.target = target.id) then some .runnerTaken
  else if createsCycle source.id target.id edges then some .cyclic
  else none

end AgentFlow

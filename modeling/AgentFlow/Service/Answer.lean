import AgentFlow.Store.Run

/-!
# Answers for users

The JSON forms of issues, findings and connection checks.

## Main definitions

* `Issue.encode`, `Issue.report`: an issue alone, and with the part it is about.
* `Finding.encode`, `Refusal.encode?`.
-/

namespace AgentFlow

/-- The place of an issue. -/
def Step.encode : Step → Json
  | .key name => .text name
  | .index i => .int i

/-- The members that tell an issue. -/
def Issue.members (i : Issue) : Members :=
  [("type", .text i.cause.code),
    ("loc", .list (i.path.map Step.encode)),
    ("msg", .text i.cause.message)]

/-- An issue, for users. -/
def Issue.encode (i : Issue) : Json := .object i.members

/-- An issue together with the part that is complained about. -/
def Issue.report (i : Issue) : Json := .object (i.members ++ [("input", i.part)])

/-- A finding, for users. -/
def Finding.encode (f : Finding) : Json :=
  .object [
    ("code", .text f.code),
    ("message", .text f.message),
    ("node_id", .ofText? f.node?),
    ("edge_id", .ofText? f.edge?),
    ("severity", .text "error")]

/-- The answer of a connection check, for users. -/
def Refusal.encode? : Option Refusal → Json
  | none => .object [("ok", .bool true), ("reason", .null), ("message", .null)]
  | some r =>
    .object [("ok", .bool false), ("reason", .text r.reason.code), ("message", .text r.message)]

end AgentFlow

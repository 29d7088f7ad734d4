import AgentFlow.Propagation.Downstream

/-!
# Keeping runner inputs up to date

The input of a runner follows the message of an input node that leads to it.

## Main definitions

* `PropagationError`: why a message cannot be propagated.
* `Graph.propagate`: sets the message of an input and of the runners downstream.
* `Graph.inputMessages`, `Graph.resync`: propagates the current message of every input.
-/

namespace AgentFlow

/-- Why a message cannot be propagated. -/
inductive PropagationError where
  /-- An id that no node has. -/
  | unresolved (reference : UnresolvedReference)
  /-- The node is not an input. -/
  | notInput (id : NodeId)
  deriving DecidableEq, Repr

/-- The message for users. -/
def PropagationError.message : PropagationError → String
  | .unresolved r => r.message
  | .notInput id => "Node " ++ id ++ " is not an input node"

namespace Graph

variable (g : Graph)

/-- A node after a message was propagated from an input to runners. -/
def received (id : NodeId) (message : String) (runners : List NodeId) (n : Node) : Node :=
  if n.id = id then { n with payload := n.payload.withMessage message }
  else if n.id ∈ runners then { n with payload := n.payload.withInput message }
  else n

/-- Sets the message of an input, and the input of every runner downstream of it. -/
def propagate (id : NodeId) (message : String) : Except PropagationError Graph := do
  let n ← (g.requireNode id).mapError .unresolved
  if n.kind ≠ .input then throw (.notInput id)
  let runners ← (g.downstream id).mapError .unresolved
  return { g with nodes := g.nodes.map (received id message runners) }

/-- Remembers a message under an id: in place if the id is known, else at the end. -/
def putMessage : List (NodeId × String) → NodeId → String → List (NodeId × String)
  | [], id, m => [(id, m)]
  | (k, old) :: rest, id, m => if k = id then (k, m) :: rest else (k, old) :: putMessage rest id m

/-- The messages of the inputs, by id. -/
def inputMessages : List (NodeId × String) :=
  g.nodes.foldl
    (fun messages n =>
      match n.payload.message? with
      | some m => putMessage messages n.id m
      | none => messages)
    []

/-- Propagates the current message of every input, in order; where two inputs reach one runner,
the later one wins. -/
def resync : Except PropagationError Graph :=
  g.inputMessages.foldlM (fun g p => g.propagate p.1 p.2) g

end Graph

end AgentFlow

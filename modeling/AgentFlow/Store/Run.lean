import AgentFlow.Store.Basic

/-!
# Histories of the store

The operations as data, so that statements can be made about every history of a store.

## Main definitions

* `Command`, `Store.step`: an operation and the store after it.
* `Store.run`: the store after a list of operations.
-/

namespace AgentFlow

/-- An operation on the store, with its arguments. -/
inductive Command where
  /-- Gives the workflow another name. -/
  | setName (name : String)
  /-- Gives the workflow another description. -/
  | setDescription (description : String)
  /-- Replaces the whole document. -/
  | load (document : Document)
  /-- Adds a node. -/
  | addNode (node : Node)
  /-- Adds a new node of a kind. -/
  | addNodeOfKind (kind : Kind) (id : Option NodeId) (position : Option Position)
  /-- Removes a node and its edges. -/
  | removeNode (id : NodeId)
  /-- Toggles whether a node is shown expanded. -/
  | toggleExpansion (id : NodeId)
  /-- Edits one member of a payload. -/
  | setField (id : NodeId) (field : String) (value : Json)
  /-- Sets the message of an input. -/
  | setInputMessage (id : NodeId) (message : Json)
  /-- Draws an edge if it is allowed. -/
  | proposeEdge (source target : NodeId) (id : Option EdgeId)
  /-- Removes an edge. -/
  | removeEdge (id : EdgeId)

/-- What an operation answers. -/
inductive Reply where
  /-- Nothing. -/
  | done
  /-- A node. -/
  | node (node : Node)
  /-- Whether an edge was drawn. -/
  | verdict (refusal : Option Refusal)
  deriving DecidableEq, Repr

/-- The outcome with its answer changed. -/
def Outcome.map {α β : Type} (f : α → β) (o : Outcome α) : Outcome β :=
  ⟨o.store, o.result.map f⟩

/-- Carries out an operation. -/
def Store.step (s : Store) : Command → Outcome Reply
  | .setName name => (s.setName name).map fun _ => .done
  | .setDescription description => (s.setDescription description).map fun _ => .done
  | .load d => (s.load d).map fun _ => .done
  | .addNode n => (s.addNode n).map .node
  | .addNodeOfKind k id position => (s.addNodeOfKind k id position).map .node
  | .removeNode id => (s.removeNode id).map fun _ => .done
  | .toggleExpansion id => (s.toggleExpansion id).map fun _ => .done
  | .setField id field value => (s.setField id field value).map .node
  | .setInputMessage id message => (s.setInputMessage id message).map fun _ => .done
  | .proposeEdge source target id => (s.proposeEdge source target id).map .verdict
  | .removeEdge id => (s.removeEdge id).map fun _ => .done

/-- The store after a list of operations. -/
def Store.run (s : Store) (commands : List Command) : Store :=
  commands.foldl (fun s c => (s.step c).store) s

@[simp] theorem Store.run_nil (s : Store) : s.run [] = s := rfl

@[simp] theorem Store.run_cons (s : Store) (c : Command) (cs : List Command) :
    s.run (c :: cs) = (s.step c).store.run cs := rfl

end AgentFlow

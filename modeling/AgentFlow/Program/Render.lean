import AgentFlow.Program.Build
import AgentFlow.Program.Literal

/-!
# The text of a program

Blocks of lines, in the order: head, imports, record classes, tools, guardrails, agents, main.

## Main definitions

* `Program.render`: the text of a program.
* `Graph.generate`, `Document.compile`: the text of a workflow's program.
-/

namespace AgentFlow

/-- Lines of a block, from the top. -/
abbrev Block := List String

/-- The text of a block. -/
def Block.text (b : Block) : String := String.intercalate "\n" b

/-- The type of a tool's parameters and results in a program. -/
def ValueType.signature : ValueType → String
  | .string => "str"
  | .number => "int"
  | .boolean => "bool"
  | .list => "list"
  | .dict => "dict"
  | .nothing => "None"

/-- The type of a record's field in a program. -/
def ValueType.fieldType : ValueType → String
  | .string => "str"
  | .number => "float"
  | .boolean => "bool"
  | .list => "List"
  | .dict => "Dict"
  | .nothing => "Any"

namespace Program

open Literal

/-- The text unless it is blank. -/
def unlessBlank : Option String → Option String
  | none => none
  | some s => if Text.isBlankText s then none else some s

/-- The text, or another one if it is empty. -/
def orElse (s other : String) : String := if s = "" then other else s

/-- The docstring of a description, if there is one. -/
def describe (description : Option String) : List String :=
  match unlessBlank description with
  | none => []
  | some s => docstring indent s

/-- Instructions of an agent that was given none. -/
def defaultInstructions : String := "No instructions provided."

/-! ### The head -/

/-- The first line. -/
def encodingLine : String := "# -*- coding: utf-8 -*-"

/-- The imports. -/
def imports : Block := [
  "from agents import Agent, Runner, function_tool",
  "from agents import GuardrailFunctionOutput, RunContextWrapper, input_guardrail, output_guardrail",
  "from pydantic import BaseModel",
  "from typing import Any, Dict, List, Optional",
  "import asyncio"]

/-- What joins the lines of a description. -/
def descriptionBreak : String := "\n#                   "

/-- The comments with name and description of the workflow. -/
def metadataBlock (m : Metadata) : Block :=
  let name := Text.strip (m.name.getD "")
  let description := Text.strip (m.description.getD "")
  (if name = "" then [] else ["# Workflow Name: " ++ comment name]) ++
    if description = "" then []
    else ["# Workflow Description: " ++
      String.intercalate descriptionBreak (Text.lines description)]

/-! ### Definitions -/

/-- The line of a field. -/
def fieldLine (f : RecordField) : String :=
  let type := f.type.fieldType
  let definition :=
    if f.isOptional then indent ++ f.name ++ ": Optional[" ++ type ++ "] = None"
    else indent ++ f.name ++ ": " ++ type
  match unlessBlank f.description with
  | none => definition
  | some s => definition ++ "  # " ++ comment s

/-- The block of a class. -/
def classBlock (c : RecordClass) : Block :=
  ["class " ++ c.name ++ "(BaseModel):"] ++ describe c.description ++
    if c.fields.isEmpty then [indent ++ "pass"] else c.fields.map fieldLine

/-- The block of a tool. -/
def toolBlock (t : ToolFunction) : Block :=
  let parameters := t.parameters.map fun (name, type) => name ++ ": " ++ type.signature
  ["@function_tool",
    "def " ++ t.name ++ "(" ++ String.intercalate ", " parameters ++ ") -> " ++
      t.returnType.signature ++ ":"] ++
    describe t.description ++
    if Text.isBlankText t.implementation then [indent ++ "pass"]
    else block indent t.implementation

/-- The block of a checker agent. -/
def checkerBlock (c : Checker) : Block :=
  ["# Internal Checker Agent for Guardrail: " ++ comment c.label,
    c.name ++ " = Agent(",
    indent ++ "name=\"" ++ c.name ++ "\",",
    indent ++ "instructions=" ++ tripleQuoted (orElse c.instructions defaultInstructions) ++ ","] ++
    (match c.outputType with
      | none => []
      | some t => [indent ++ "output_type=" ++ t ++ ","]) ++
    [indent ++ "tools=[],", indent ++ "handoffs=[],", ")"]

/-- Two steps of indentation. -/
def deep : String := indent ++ indent

/-- The lines of a guardrail function that decide whether it trips, for an answer that is a
record. -/
def tripwireLines (g : Guard) : List String :=
  let logic := Text.strip g.tripwireLogic
  let untripped := deep ++ "tripwire_triggered = False"
  if logic = "" then
    [deep ++ "# No tripwire logic provided for guardrail '" ++ comment g.label ++
        "'. Defaulting to not triggered.",
      untripped]
  else
    match g.outputType with
    | some _ =>
      [deep ++ "tripwire_logic = " ++ string logic,
        deep ++ "try:",
        deep ++ indent ++ "tripwire_triggered = bool(eval(tripwire_logic, " ++
          "\x7b\"__builtins__\": \x7b\x7d\x7d, \x7b\"output\": output_for_eval\x7d))",
        deep ++ "except Exception as e:",
        deep ++ indent ++ "print(" ++
          string ("Error evaluating tripwire logic for guardrail '" ++ g.label ++ "':") ++ ", e)",
        deep ++ indent ++ "tripwire_triggered = False"]
    | none =>
      [deep ++ "# Tripwire logic is set but the checker agent declares no output schema. " ++
          "Defaulting to not triggered.",
        deep ++ "print(" ++
          string ("Warning: Tripwire logic '" ++ logic ++ "' for guardrail '" ++ g.label ++
            "' is set, but the internal agent has no structured output type. " ++
            "Cannot reliably evaluate. Defaulting to not triggered.") ++ ")",
        untripped]

/-- The block of a guardrail function. -/
def guardBlock (g : Guard) : Block :=
  let decorator :=
    match g.side with
    | .input => "@input_guardrail"
    | .output => "@output_guardrail"
  let subject :=
    match g.side with
    | .input => "input_data"
    | .output => "output_data"
  let noneWarning := "Warning: Internal agent output for guardrail '" ++ g.label ++
    "' was None. Cannot evaluate tripwire logic. Defaulting to not triggered."
  let typeWarning := "Warning: Internal agent output for guardrail '" ++ g.label ++
    "' is not a Pydantic model. Cannot reliably evaluate tripwire logic. " ++
    "Defaulting to not triggered. Output type:"
  [decorator,
    "async def " ++ g.name ++ "(ctx: RunContextWrapper, agent: Agent, " ++ subject ++
      ": Any) -> GuardrailFunctionOutput:"] ++
    describe g.description ++
    [indent ++ "# Run the internal checker agent",
      indent ++ "checker_input = f\"Data to check: \x7bstr(" ++ subject ++ ")\x7d\"",
      indent ++ "checker_result = await Runner.run(" ++ g.checker ++
        ", checker_input, context=ctx.context)",
      "",
      indent ++ "tripwire_triggered = False  # Default to not triggered",
      indent ++ "output_for_eval = checker_result.final_output " ++
        "if checker_result is not None else None",
      "",
      indent ++ "if isinstance(output_for_eval, BaseModel):"] ++
    tripwireLines g ++
    [indent ++ "elif output_for_eval is None:",
      deep ++ "print(" ++ string noneWarning ++ ")",
      deep ++ "tripwire_triggered = False",
      indent ++ "else:",
      deep ++ "print(" ++ string typeWarning ++ ", type(output_for_eval).__name__)",
      deep ++ "tripwire_triggered = False",
      "",
      indent ++ "output_info = output_for_eval if output_for_eval is not None else " ++
        string ("Guardrail " ++ g.label ++ " evaluated."),
      indent ++ "return GuardrailFunctionOutput(output_info=output_info, " ++
        "tripwire_triggered=tripwire_triggered)"]

/-- A list of names in brackets, as an argument. -/
def namesArgument (argument : String) (names : List String) : String :=
  indent ++ argument ++ "=[" ++ String.intercalate ", " names ++ "],"

/-- The block of an agent. -/
def agentBlock (a : AgentDefinition) : Block :=
  ["# Agent: " ++ orElse (comment a.label) "My Agent" ++ " (variable: " ++ a.name ++ ")",
    a.name ++ " = Agent(",
    indent ++ "name=\"" ++ a.name ++ "\",",
    indent ++ "instructions=" ++ tripleQuoted (orElse a.instructions defaultInstructions) ++ ",",
    namesArgument "tools" a.tools,
    namesArgument "handoffs" a.handoffs] ++
    (match a.outputType with
      | none => []
      | some t => [indent ++ "output_type=" ++ t ++ ","]) ++
    (if a.inputGuardrails.isEmpty then []
      else [namesArgument "input_guardrails" a.inputGuardrails]) ++
    (if a.outputGuardrails.isEmpty then []
      else [namesArgument "output_guardrails" a.outputGuardrails]) ++
    (match unlessBlank a.handoffDescription with
      | none => []
      | some s => [indent ++ "handoff_description=" ++ tripleQuoted (Text.strip s) ++ ","]) ++
    [")"]

/-! ### The main function -/

/-- The text up to the first line feed. -/
def firstLine (s : String) : String :=
  String.ofList (s.toList.takeWhile (· ≠ '\n'))

/-- The note about a runner that has no agent. -/
def idleNote (label : String) : String :=
  "# Runner node \"" ++ orElse (comment label) "Unnamed Runner" ++
    "\" is not connected to an Agent."

/-- The lines of a call. -/
def callLines (awaited : Bool) (agent input : String) (context : Option String) : List String :=
  let manner := if awaited then "asynchronously" else "synchronously"
  let start := if awaited then "await Runner.run(" else "Runner.run_sync("
  let extra :=
    match unlessBlank context with
    | none => ""
    | some c => ", context=" ++ Text.strip c
  [indent ++ "print(" ++
      string ("Executing " ++ agent ++ " " ++ manner ++ " with input: " ++ firstLine input ++
        "...") ++ ")",
    indent ++ "result = " ++ start ++ agent ++ ", " ++ tripleQuoted input ++ extra ++ ")",
    indent ++ "print(f\"Response from " ++ agent ++ ": \x7bresult.final_output\x7d\")"]

/-- The lines of a stanza. -/
def stanzaLines (awaited : Bool) : Stanza → List String
  | .call agent input context _ => callLines awaited agent input context
  | .idle label => [indent ++ idleNote label]

/-- The notes of the runners without an agent. -/
def idleNotes (stanzas : List Stanza) : List String :=
  stanzas.filterMap fun s =>
    match s with
    | .idle label => some (idleNote label)
    | .call _ _ _ _ => none

/-- The blocks of the main function and of the entry point; without a call only the notes are
left. -/
def mainBlocks (p : Program) : List Block :=
  if p.hasMain then
    -- a blocking run cannot be made inside an event loop, so one asynchronous runner makes all
    -- of them awaited
    let awaited := p.isAwaited
    [["# Main Execution", if awaited then "async def main():" else "def main():"] ++
        p.stanzas.flatMap (stanzaLines awaited),
      ["if __name__ == \"__main__\":",
        indent ++ if awaited then "asyncio.run(main())" else "main()"]]
  else if (idleNotes p.stanzas).isEmpty then []
  else ["# Main Execution" :: idleNotes p.stanzas]

/-! ### The whole -/

/-- Puts a title above the first block. -/
def titled (title : String) : List Block → List Block
  | [] => []
  | b :: bs => (title :: b) :: bs

/-- The block of a program with nothing to execute. -/
def emptyBlock (p : Program) : Block :=
  ["# No executable workflow elements found to generate code.",
    "# Nodes: " ++ toString p.nodeCount ++ ", Edges: " ++ toString p.edgeCount]

/-- The blocks before the definitions. -/
def headBlocks (p : Program) : List Block :=
  let m := metadataBlock p.metadata
  [encodingLine] :: (if m.isEmpty then [] else [m]) ++ [imports]

/-- The blocks of the definitions and of the main function. -/
def bodyBlocks (p : Program) : List Block :=
  p.classes.map classBlock ++
    titled "# Function Tools" (p.tools.map toolBlock) ++
    titled "# Guardrail Definitions"
      (p.guardrails.flatMap fun (c, g) => [checkerBlock c, guardBlock g]) ++
    titled "# Agents" (p.agents.map agentBlock) ++
    mainBlocks p ++
    if p.isEmpty then [emptyBlock p] else []

/-- The text of a program. -/
def render (p : Program) : String :=
  String.intercalate "\n\n" (p.headBlocks.map Block.text) ++ "\n\n\n" ++
    String.intercalate "\n\n\n" (p.bodyBlocks.map Block.text) ++ "\n"

end Program

/-- The text of a graph's program. -/
def Graph.generate (g : Graph) (m : Metadata := {}) : Except CompileError String :=
  (Program.build g m).map Program.render

/-- The text of a document's program, with the document's name and description. -/
def Document.compile (d : Document) : Except CompileError String :=
  d.graph.generate { name := some d.name, description := some d.description }

end AgentFlow

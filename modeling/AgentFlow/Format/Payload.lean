import AgentFlow.Format.Schema
import AgentFlow.Json.Display

/-!
# Saved form of payloads

A payload is saved as an object with the members of its kind and the name of the kind.  Reading
a payload whose kind is not known beforehand goes by that name.

## Main definitions

* `Payload.decodeAs`: reads a payload of a known kind.
* `Payload.decode`: reads a payload by the kind it names.
* `Payload.encode`, `Payload.members`: the saved form.
* `Payload.fieldNames`, `Payload.resolve?`: the members of a kind, by either spelling.
-/

namespace AgentFlow

/-! ### Spellings of the members -/

namespace FieldName

/-- The expanded flag. -/
def isExpanded : FieldName := ⟨"isExpanded", "is_expanded"⟩

/-- The kind of a payload. -/
def nodeType : FieldName := ⟨"nodeType", "node_type"⟩

/-- The record type of an agent's answers. -/
def outputSchema : FieldName := ⟨"pydanticSchema", "output_schema"⟩

/-- The type of a tool's result. -/
def returnType : FieldName := ⟨"returnType", "return_type"⟩

/-- The side that a guardrail watches. -/
def guardrailType : FieldName := ⟨"guardrailType", "guardrail_type"⟩

/-- The name of a checker agent. -/
def checkerName : FieldName := ⟨"internalAgentName", "internal_agent_name"⟩

/-- The instructions of a checker agent. -/
def checkerInstructions : FieldName :=
  ⟨"internalAgentInstructions", "internal_agent_instructions"⟩

/-- The record type of a checker's answers. -/
def checkerSchema : FieldName :=
  ⟨"internalAgentPydanticSchema", "internal_agent_output_schema"⟩

/-- The condition that trips a guardrail. -/
def tripwireLogic : FieldName := ⟨"tripwireConditionLogic", "tripwire_logic"⟩

end FieldName

/-! ### Headings -/

namespace Heading

/-- Reads the members of a heading. -/
def read (m : Members) : Checked Heading :=
  (fun name isExpanded => { name, isExpanded }) <$>
    Read.optional m (.same "name") "" Read.text <*>
    Read.optional m .isExpanded false Read.truth

/-- Reads a heading on its own. -/
def decode (ch : Channel) : Json → Checked Heading :=
  Read.record ch "NodeBaseData" read

/-- The saved members of a heading. -/
def members (sp : Spelling) (h : Heading) : Members :=
  [("name", .text h.name), (FieldName.isExpanded.spell sp, .bool h.isExpanded)]

/-- The saved form of a heading on its own. -/
def encode (sp : Spelling) (h : Heading) : Json := .object (h.members sp)

end Heading

namespace Payload

/-- Reads the member that names the kind; it may be left out. -/
def readTag (m : Members) (k : Kind) : Checked Unit :=
  Read.optional m .nodeType () (Read.literal k.name)

/-! ### Reading, kind by kind -/

/-- Reads the members of an agent. -/
def readAgent (ch : Channel) (m : Members) : Checked AgentData :=
  (fun h _ instructions handoffDescription outputSchema =>
      { toHeading := h, instructions, handoffDescription, outputSchema }) <$>
    Heading.read m <*>
    readTag m .agent <*>
    Read.optional m (.same "instructions") "" Read.text <*>
    Read.optional m (.same "handoff_description") none (Read.nullable Read.text) <*>
    Read.optional m .outputSchema none (Read.nullable (StructuredSchema.decode ch))

/-- Reads the members of a runner. -/
def readRunner (m : Members) : Checked RunnerData :=
  (fun h _ input executionMode context => { toHeading := h, input, executionMode, context }) <$>
    Heading.read m <*>
    readTag m .runner <*>
    Read.optional m (.same "input") "" Read.text <*>
    Read.optional m (.same "execution_mode") .sync (Read.choice ExecutionMode) <*>
    Read.optional m (.same "context") none (Read.nullable Read.text)

/-- Reads the members of a function tool. -/
def readTool (ch : Channel) (m : Members) : Checked ToolData :=
  (fun h _ description parameters returnType implementation =>
      { toHeading := h, description, parameters, returnType, implementation }) <$>
    Heading.read m <*>
    readTag m .functionTool <*>
    Read.optional m (.same "description") none (Read.nullable Read.text) <*>
    Read.optional m (.same "parameters") [] (Read.items (ToolParameter.decode ch)) <*>
    Read.optional m .returnType .string (Read.choice ValueType) <*>
    Read.optional m (.same "implementation") "" Read.text

/-- Reads the members of an input. -/
def readInput (m : Members) : Checked InputData :=
  (fun h _ message => { toHeading := h, message }) <$>
    Heading.read m <*>
    readTag m .input <*>
    Read.optional m (.same "message") "" Read.text

/-- Reads the members of a guardrail. -/
def readGuardrail (ch : Channel) (m : Members) : Checked GuardrailData :=
  (fun h _ side description checkerName checkerInstructions checkerSchema tripwireLogic =>
      { toHeading := h, side, description, checkerName, checkerInstructions, checkerSchema,
        tripwireLogic }) <$>
    Heading.read m <*>
    readTag m .guardrail <*>
    Read.optional m .guardrailType .input (Read.choice GuardrailSide) <*>
    Read.optional m (.same "description") none (Read.nullable Read.text) <*>
    Read.optional m .checkerName "" Read.text <*>
    Read.optional m .checkerInstructions "" Read.text <*>
    Read.optional m .checkerSchema none (Read.nullable (StructuredSchema.decode ch)) <*>
    Read.optional m .tripwireLogic "" Read.text

/-- Reads the members of a payload of a known kind. -/
def read (ch : Channel) (m : Members) : Kind → Checked Payload
  | .agent => .agent <$> readAgent ch m
  | .runner => .runner <$> readRunner m
  | .functionTool => .functionTool <$> readTool ch m
  | .input => .input <$> readInput m
  | .guardrail => .guardrail <$> readGuardrail ch m

/-- The name of the record that holds a payload. -/
def recordName : Kind → String
  | .agent => "AgentNodeData"
  | .runner => "RunnerNodeData"
  | .functionTool => "FunctionToolNodeData"
  | .input => "InputNodeData"
  | .guardrail => "GuardrailNodeData"

/-- Reads a payload of a known kind. -/
def decodeAs (ch : Channel) (k : Kind) : Json → Checked Payload :=
  Read.record ch (recordName k) fun m => read ch m k

/-- What a payload names as its kind; the plain spelling comes first. -/
def tag? (m : Members) : Option Json :=
  match m.get? FieldName.nodeType.plain with
  | some v => some v
  | none => m.get? FieldName.nodeType.editor

/-- The kind that a value names. -/
def kindOf? : Json → Option Kind
  | .text s => Choice.ofName? s
  | _ => none

/-- A value that names no kind. -/
structure UnknownKind where
  /-- The value. -/
  value : Json

/-- The message for users. -/
def UnknownKind.message (u : UnknownKind) : String :=
  u.value.literal ++ " is not a valid NodeKind"

/-- The kind that a value names, or the complaint that there is none. -/
def requireKind (v : Json) : Except UnknownKind Kind :=
  match kindOf? v with
  | some k => .ok k
  | none => .error { value := v }

/-- Reads a payload by the kind it names. -/
def decode (ch : Channel) (v : Json) : Checked Payload :=
  match v with
  | .object m =>
    match tag? m with
    | none => .refuse .untagged v
    | some tag =>
      match kindOf? tag with
      | some k => (read ch m k).under (.key k.name)
      | none => .refuse (.unknownTag tag.display (Choice.names Kind)) v
  | _ => .refuse .notObject v

/-! ### The saved form -/

/-- The saved members of a payload. -/
def members (sp : Spelling) (p : Payload) : Members :=
  p.heading.members sp ++ (FieldName.nodeType.spell sp, .text p.kind.name) ::
    match p with
    | .agent d => [
        ("instructions", .text d.instructions),
        ("handoff_description", .ofText? d.handoffDescription),
        (FieldName.outputSchema.spell sp, StructuredSchema.encode? sp d.outputSchema)]
    | .runner d => [
        ("input", .text d.input),
        ("execution_mode", .text d.executionMode.name),
        ("context", .ofText? d.context)]
    | .functionTool d => [
        ("description", .ofText? d.description),
        ("parameters", .list (d.parameters.map ToolParameter.encode)),
        (FieldName.returnType.spell sp, .text d.returnType.name),
        ("implementation", .text d.implementation)]
    | .input d => [("message", .text d.message)]
    | .guardrail d => [
        (FieldName.guardrailType.spell sp, .text d.side.name),
        ("description", .ofText? d.description),
        (FieldName.checkerName.spell sp, .text d.checkerName),
        (FieldName.checkerInstructions.spell sp, .text d.checkerInstructions),
        (FieldName.checkerSchema.spell sp, StructuredSchema.encode? sp d.checkerSchema),
        (FieldName.tripwireLogic.spell sp, .text d.tripwireLogic)]

/-- The saved form of a payload. -/
def encode (sp : Spelling) (p : Payload) : Json := .object (p.members sp)

/-! ### Members by name -/

/-- The members of a payload of a kind, in order. -/
def fieldNames (k : Kind) : List FieldName :=
  [.same "name", .isExpanded, .nodeType] ++
    match k with
    | .agent => [.same "instructions", .same "handoff_description", .outputSchema]
    | .runner => [.same "input", .same "execution_mode", .same "context"]
    | .functionTool =>
      [.same "description", .same "parameters", .returnType, .same "implementation"]
    | .input => [.same "message"]
    | .guardrail =>
      [.guardrailType, .same "description", .checkerName, .checkerInstructions, .checkerSchema,
        .tripwireLogic]

/-- The member with a spelling; the plain one is tried first. -/
def resolve? (k : Kind) (name : String) : Option FieldName :=
  match (fieldNames k).find? (·.plain = name) with
  | some f => some f
  | none => (fieldNames k).find? (·.editor = name)

end Payload

end AgentFlow

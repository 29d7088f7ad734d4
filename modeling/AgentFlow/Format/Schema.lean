import AgentFlow.Decode.Field
import AgentFlow.Workflow.Payload

/-!
# Saved form of schemas and parameters

## Main definitions

* `SchemaField.decode`, `SchemaField.encode`.
* `StructuredSchema.decode`, `StructuredSchema.encode`.
* `ToolParameter.decode`, `ToolParameter.encode`.
-/

namespace AgentFlow

/-- The saved form of a text that may be absent. -/
def Json.ofText? : Option String → Json
  | none => .null
  | some s => .text s

namespace SchemaField

/-- Reads a schema field. -/
def decode (ch : Channel) : Json → Checked SchemaField :=
  Read.record ch "SchemaField" fun m =>
    (fun id name type isOptional description => { id, name, type, isOptional, description }) <$>
      Read.optional m (.same "id") none (Read.nullable Read.text) <*>
      Read.optional m (.same "name") "" Read.text <*>
      Read.optional m (.same "type") .string (Read.choice ValueType) <*>
      Read.optional m ⟨"isOptional", "is_optional"⟩ false Read.truth <*>
      Read.optional m (.same "description") none (Read.nullable Read.text)

/-- The saved form of a schema field. -/
def encode (sp : Spelling) (f : SchemaField) : Json :=
  .object [
    ("id", .ofText? f.id),
    ("name", .text f.name),
    ("type", .text f.type.name),
    (FieldName.spell ⟨"isOptional", "is_optional"⟩ sp, .bool f.isOptional),
    ("description", .ofText? f.description)]

end SchemaField

namespace StructuredSchema

/-- Reads a structured schema. -/
def decode (ch : Channel) : Json → Checked StructuredSchema :=
  Read.record ch "StructuredSchema" fun m =>
    (fun modelName description fields => { modelName, description, fields }) <$>
      Read.optional m ⟨"modelName", "model_name"⟩ "" Read.text <*>
      Read.optional m (.same "description") none (Read.nullable Read.text) <*>
      Read.optional m (.same "fields") [] (Read.items (SchemaField.decode ch))

/-- The saved form of a structured schema. -/
def encode (sp : Spelling) (s : StructuredSchema) : Json :=
  .object [
    (FieldName.spell ⟨"modelName", "model_name"⟩ sp, .text s.modelName),
    ("description", .ofText? s.description),
    ("fields", .list (s.fields.map (SchemaField.encode sp)))]

/-- The saved form of a schema that may be absent. -/
def encode? (sp : Spelling) : Option StructuredSchema → Json
  | none => .null
  | some s => encode sp s

end StructuredSchema

namespace ToolParameter

/-- Reads a tool parameter. -/
def decode (ch : Channel) : Json → Checked ToolParameter :=
  Read.record ch "ToolParameter" fun m =>
    (fun id name type => { id, name, type }) <$>
      Read.optional m (.same "id") none (Read.nullable Read.text) <*>
      Read.optional m (.same "name") "" Read.text <*>
      Read.optional m (.same "type") .string (Read.choice ValueType)

/-- The saved form of a tool parameter. -/
def encode (p : ToolParameter) : Json :=
  .object [("id", .ofText? p.id), ("name", .text p.name), ("type", .text p.type.name)]

end ToolParameter

end AgentFlow

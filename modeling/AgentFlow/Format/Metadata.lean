import AgentFlow.Decode.Field
import AgentFlow.Program.Basic

/-!
# Saved form of name and description

The name and the description of a workflow may be given beside a graph instead of in a document.

## Main definitions

* `Metadata.decode`.
-/

namespace AgentFlow

/-- Reads name and description of a workflow on their own; both may be left out. -/
def Metadata.decode (ch : Channel) : Json → Checked Metadata :=
  Read.record ch "CodegenMetadata" fun m =>
    (fun name description => { name, description }) <$>
      Read.optional m (.same "workflow_name") none (Read.nullable Read.text) <*>
      Read.optional m (.same "workflow_description") none (Read.nullable Read.text)

end AgentFlow

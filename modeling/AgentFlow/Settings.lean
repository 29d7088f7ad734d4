import AgentFlow.Text.Blank
import AgentFlow.Text.Case
import AgentFlow.Workflow.Graph

/-!
# Settings

What an installation can set by environment variables.  The settings are read once and then kept
until they are forgotten.

## Main definitions

* `Environment`, `Settings`, `Settings.ofEnvironment`.
* `SettingsCache`: settings that are read once.
-/

namespace AgentFlow

/-- The environment variables that matter; those that are not set are absent. -/
structure Environment where
  /-- How much is logged. -/
  logLevel : Option String := none
  /-- Origins that may call the service, separated by commas. -/
  corsOrigins : Option String := none
  /-- Name of a new workflow. -/
  workflowDefaultName : Option String := none
  /-- Whether the workflow service is offered. -/
  workflowApiEnabled : Option String := none
  deriving DecidableEq, Repr

/-- The settings of an installation. -/
structure Settings where
  /-- How much is logged, in capitals. -/
  logLevel : String
  /-- Origins that may call the service. -/
  corsOrigins : List String
  /-- Name of a new workflow. -/
  workflowDefaultName : String
  /-- The workflow service is offered. -/
  workflowApiEnabled : Bool
  deriving DecidableEq, Repr

namespace Settings

/-- The origins of a development setup. -/
def defaultCorsOrigins : String := "http://localhost:3000,http://localhost:3001"

/-- The texts that switch a flag on. -/
def onWords : List String := ["1", "true", "yes", "on"]

/-- A flag is on if its text, without blanks around it and in any case, is one of the words for
on.  Lower-casing ASCII letters is enough: outside ASCII only I with a dot above and the Kelvin sign
have a lower-case form with an ASCII letter, and no word for on has an i or a k. -/
def flag (s : String) : Bool :=
  String.ofList (Chars.lowerAscii (Chars.strip s.toList)) ∈ onWords

/-- The entries of a list separated by commas, without blanks around them; empty entries are
dropped. -/
def commaList (s : String) : List String :=
  ((s.toList.splitOn ',').map fun part => String.ofList (Chars.strip part)).filter (· ≠ "")

/-- The settings that an environment gives. -/
def ofEnvironment (e : Environment) : Settings :=
  { logLevel := Text.upper (e.logLevel.getD "INFO")
    corsOrigins := commaList (e.corsOrigins.getD defaultCorsOrigins)
    workflowDefaultName := e.workflowDefaultName.getD defaultWorkflowName
    workflowApiEnabled := flag (e.workflowApiEnabled.getD "1") }

/-- The document of a new workflow. -/
def newDocument (s : Settings) : Document := { name := s.workflowDefaultName }

end Settings

/-- Settings that are kept once they were read. -/
structure SettingsCache where
  /-- The settings that were read. -/
  kept : Option Settings := none
  deriving DecidableEq, Repr

namespace SettingsCache

/-- The settings that are kept, or else those of the environment, which are kept from then on. -/
def get (c : SettingsCache) (e : Environment) : Settings × SettingsCache :=
  match c.kept with
  | some s => (s, c)
  | none =>
    let s := Settings.ofEnvironment e
    (s, { kept := some s })

/-- Forgets the settings that are kept. -/
def clear (_ : SettingsCache) : SettingsCache := {}

end SettingsCache

end AgentFlow

import AgentFlow.Json.Basic

/-!
# Complaints about a value

A value that does not fit what is expected gives rise to issues.  An issue is a cause together
with the part of the value that is complained about and the place of that part.

## Main definitions

* `Step`, `Issue`: the place, the cause and the part.
* `Cause`, `Cause.code`, `Cause.message`: what can be wrong, with a short code and a sentence.
-/

namespace AgentFlow

/-- One step from a value into one of its parts. -/
inductive Step where
  /-- To the member with a key, or to a variant of a union. -/
  | key (name : String)
  /-- To the item with an index. -/
  | index (i : Nat)
  deriving DecidableEq, Repr

/-- What is wrong with a value. -/
inductive Cause where
  /-- A member that must be there is not. -/
  | missing
  /-- Not a text. -/
  | notText
  /-- Not a truth value, nor something that stands for one. -/
  | notTruth
  /-- Could stand for a truth value, but for none that is known. -/
  | unreadableTruth
  /-- Not a number, nor something that stands for one. -/
  | notNumber
  /-- A text that does not denote a number. -/
  | unreadableNumber
  /-- Not one of the named choices. -/
  | notChoice (names : List String)
  /-- Not the one text that is expected. -/
  | notLiteral (expected : String)
  /-- Not an array. -/
  | notList
  /-- Not an object for a record of this name. -/
  | notRecord (name : String)
  /-- Not an object. -/
  | notObject
  /-- A payload without a kind. -/
  | untagged
  /-- A payload whose kind is none of the kinds. -/
  | unknownTag (shown : String) (names : List String)
  /-- A node whose kind is not that of its payload. -/
  | kindMismatch (id kind payloadKind : String)
  deriving DecidableEq, Repr

/-- A list of alternatives in words. -/
def alternatives (names : List String) : String :=
  let quoted := names.map fun s => "'" ++ s ++ "'"
  match quoted.reverse with
  | [] => ""
  | [only] => only
  | last :: others => String.intercalate ", " others.reverse ++ " or " ++ last

/-- The short code of a cause. -/
def Cause.code : Cause → String
  | .missing => "missing"
  | .notText => "string_type"
  | .notTruth => "bool_type"
  | .unreadableTruth => "bool_parsing"
  | .notNumber => "float_type"
  | .unreadableNumber => "float_parsing"
  | .notChoice _ => "enum"
  | .notLiteral _ => "literal_error"
  | .notList => "list_type"
  | .notRecord _ => "model_type"
  | .notObject => "model_attributes_type"
  | .untagged => "union_tag_not_found"
  | .unknownTag _ _ => "union_tag_invalid"
  | .kindMismatch _ _ _ => "value_error"

/-- The keys that may hold the kind of a payload, as messages name them. -/
def tagKeys : String := "'node_type' | 'nodeType'"

/-- The sentence for users. -/
def Cause.message : Cause → String
  | .missing => "Field required"
  | .notText => "Input should be a valid string"
  | .notTruth => "Input should be a valid boolean"
  | .unreadableTruth => "Input should be a valid boolean, unable to interpret input"
  | .notNumber => "Input should be a valid number"
  | .unreadableNumber => "Input should be a valid number, unable to parse string as a number"
  | .notChoice names => "Input should be " ++ alternatives names
  | .notLiteral expected => "Input should be '" ++ expected ++ "'"
  | .notList => "Input should be a valid list"
  | .notRecord name => "Input should be a valid dictionary or instance of " ++ name
  | .notObject => "Input should be a valid dictionary or object to extract fields from"
  | .untagged => "Unable to extract tag using discriminator " ++ tagKeys
  | .unknownTag shown names =>
    "Input tag '" ++ shown ++ "' found using " ++ tagKeys ++
      " does not match any of the expected tags: " ++
      String.intercalate ", " (names.map fun s => "'" ++ s ++ "'")
  | .kindMismatch id kind payloadKind =>
    "Value error, Node " ++ id ++ " has type '" ++ kind ++ "' but payload '" ++ payloadKind ++ "'"

/-- A cause, the place where it was found and what stands there. -/
structure Issue where
  /-- What is wrong. -/
  cause : Cause
  /-- Where it is, from the outside in. -/
  path : List Step := []
  /-- What is complained about; for a missing member the object that lacks it. -/
  part : Json
  deriving Repr

/-- The issue seen from one step further out. -/
def Issue.under (s : Step) (i : Issue) : Issue := { i with path := s :: i.path }

end AgentFlow

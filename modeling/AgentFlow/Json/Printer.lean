import AgentFlow.Json.Basic
import AgentFlow.Number.Shortest
import AgentFlow.Text.Hex

/-!
# Writing JSON

## Main definitions

* `Json.escapeChar`, `Json.quote`: a text as a JSON string.
* `Json.write`: the text of a value.
-/

namespace AgentFlow

namespace Json

/-- How a character stands inside a JSON string: quotes, backslashes and the control characters
below U+0020 are escaped, and nothing else. -/
def escapeChar (c : Char) : List Char :=
  if c = '"' then ['\\', '"']
  else if c = '\\' then ['\\', '\\']
  else if c = '\n' then ['\\', 'n']
  else if c = '\r' then ['\\', 'r']
  else if c = '\t' then ['\\', 't']
  else if c = '\x08' then ['\\', 'b']
  else if c = '\x0c' then ['\\', 'f']
  else if c.toNat < 0x20 then '\\' :: 'u' :: hexDigits 4 c.toNat
  else [c]

/-- A text as a JSON string. -/
def quote (s : String) : String :=
  String.ofList ('"' :: (s.toList.flatMap escapeChar ++ ['"']))

/-- The texts of the numbers that are not finite. -/
def numberStyle : Shortest.Style := { infinity := "Infinity", nan := "NaN" }

mutual

/-- The text of a value. -/
def write : Json → String
  | .null => "null"
  | .bool b => if b then "true" else "false"
  | .int n => toString n
  | .float x => Shortest.write numberStyle x
  | .text s => quote s
  | .list items => "[" ++ String.intercalate ", " (writeItems items) ++ "]"
  | .object members => "\x7b" ++ String.intercalate ", " (writeMembers members) ++ "\x7d"

/-- The texts of the items of an array. -/
def writeItems : List Json → List String
  | [] => []
  | v :: vs => write v :: writeItems vs

/-- The texts of the members of an object. -/
def writeMembers : List (String × Json) → List String
  | [] => []
  | (k, v) :: ms => (quote k ++ ": " ++ write v) :: writeMembers ms

end

end Json

end AgentFlow

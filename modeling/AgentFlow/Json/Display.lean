import AgentFlow.Json.Printer
import AgentFlow.Text.Printable

/-!
# Showing a value in a message

Messages show a value the way the emitted programs would write it: `None`, `True`, single
quotes unless the text has single quotes and no double ones, and escapes for what cannot be
printed.

## Main definitions

* `Json.literal`: a value as an expression.
* `Json.display`: a value in a message; a text stands without quotes.
-/

namespace AgentFlow

namespace Json

/-- The texts of the numbers that are not finite. -/
def literalNumberStyle : Shortest.Style := { infinity := "inf", nan := "nan" }

/-- How a character stands inside a literal with the given quote. -/
def literalChar (mark c : Char) : List Char :=
  if c = mark ∨ c = '\\' then ['\\', c]
  else if c = '\n' then ['\\', 'n']
  else if c = '\r' then ['\\', 'r']
  else if c = '\t' then ['\\', 't']
  else if isPrintable c then [c]
  else if c.toNat < 0x100 then '\\' :: 'x' :: hexDigits 2 c.toNat
  else if c.toNat < 0x10000 then '\\' :: 'u' :: hexDigits 4 c.toNat
  else '\\' :: 'U' :: hexDigits 8 c.toNat

/-- A text as a literal. -/
def textLiteral (s : String) : String :=
  let cs := s.toList
  let mark := if cs.contains '\'' && !cs.contains '"' then '"' else '\''
  String.ofList (mark :: (cs.flatMap (literalChar mark) ++ [mark]))

mutual

/-- A value as an expression. -/
def literal : Json → String
  | .null => "None"
  | .bool b => if b then "True" else "False"
  | .int n => toString n
  | .float x => Shortest.write literalNumberStyle x
  | .text s => textLiteral s
  | .list items => "[" ++ String.intercalate ", " (literalItems items) ++ "]"
  | .object members => "\x7b" ++ String.intercalate ", " (literalMembers members) ++ "\x7d"

/-- The items of an array as expressions. -/
def literalItems : List Json → List String
  | [] => []
  | v :: vs => literal v :: literalItems vs

/-- The members of an object as expressions. -/
def literalMembers : List (String × Json) → List String
  | [] => []
  | (k, v) :: ms => (textLiteral k ++ ": " ++ literal v) :: literalMembers ms

end

/-- A value in a message. -/
def display : Json → String
  | .text s => s
  | v => literal v

end Json

end AgentFlow

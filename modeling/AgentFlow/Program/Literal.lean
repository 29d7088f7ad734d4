import AgentFlow.Json.Printer
import AgentFlow.Text.Lines

/-!
# Free text inside a program

Messages, descriptions and names are free text.  Inside an emitted program they stand in
string literals, in docstrings, in comments or as the body of a function.

## Main definitions

* `Literal.string`: a literal on one line.
* `Literal.tripleQuoted`: a literal that keeps its line ends.
* `Literal.comment`: a text folded onto one line.
* `Literal.docstring`: the lines of a docstring.
* `Literal.block`: the lines of an indented body.
-/

namespace AgentFlow

namespace Literal

/-- One step of indentation. -/
def indent : String := "    "

/-- A literal in double quotes, on one line. -/
def string (s : String) : String := Json.quote s

/-! ### Triple quotes -/

/-- The inside of a triple-quoted literal.  Backslashes are doubled, three quotes in a row are
escaped one by one, and so is a quote at the very end, which would run into the closing ones. -/
def tripleBody : List Char → List Char
  | [] => []
  | '\\' :: cs => '\\' :: '\\' :: tripleBody cs
  | '"' :: '"' :: '"' :: cs => '\\' :: '"' :: '\\' :: '"' :: '\\' :: '"' :: tripleBody cs
  | ['"'] => ['\\', '"']
  | c :: cs => c :: tripleBody cs

/-- The quotes around a triple-quoted literal. -/
def tripleMark : String := "\"\"\""

/-- A literal in triple double quotes. -/
def tripleQuoted (s : String) : String :=
  tripleMark ++ String.ofList (tripleBody s.toList) ++ tripleMark

/-! ### Lines -/

/-- A text folded onto one line. -/
def comment (s : String) : String :=
  String.intercalate " " (Text.strippedLines s)

/-- A line behind an indentation; an empty line stays empty. -/
def indented (ind line : String) : String :=
  if line = "" then "" else ind ++ line

/-- The pieces of a text between line feeds. -/
def splitFeeds (cs : List Char) : List String :=
  (cs.splitOn '\n').map String.ofList

/-- The lines of a docstring: one line if the text has one, else the lines of the text between two
lines with the quotes. -/
def docstring (ind : String) (s : String) : List String :=
  match Text.strippedLines s with
  | [line] => [ind ++ tripleQuoted line]
  | lines =>
    let body := splitFeeds (tripleBody (String.intercalate "\n" lines).toList)
    (ind ++ tripleMark) :: body.map (indented ind) ++ [ind ++ tripleMark]

/-- The lines of a text behind an indentation; blank lines become empty. -/
def block (ind : String) (s : String) : List String :=
  (Text.lines (Text.stripRight s)).map fun line =>
    if Text.isBlankText line then "" else ind ++ line

end Literal

end AgentFlow

import AgentFlow.Text.Blank

/-!
# Lines of a text

Ten characters end a line: line feed, vertical tab, form feed, carriage return, the file, group
and record separators, next line, and the line and paragraph separators.  A carriage return
and the line feed after it end one line together.

## Main definitions

* `isLineEnd`: the class of line ends.
* `Chars.lines`: the lines of a text, without their ends.
* `Text.lines`, `Text.strippedLines`: the same on strings, and each line stripped.
-/

namespace AgentFlow

/-- The characters that end a line. -/
def isLineEnd (c : Char) : Bool :=
  let n := c.toNat
  (0x0a ≤ n && n ≤ 0x0d) || (0x1c ≤ n && n ≤ 0x1e) || n == 0x85 || n == 0x2028 || n == 0x2029

namespace Chars

/-- Puts a character in front of the first line. -/
def consFirst (c : Char) : List (List Char) → List (List Char)
  | [] => [[c]]
  | line :: rest => (c :: line) :: rest

/-- The lines of a text, without their ends.  What follows the last line end is a line only if
it is not empty. -/
def lines : List Char → List (List Char)
  | [] => []
  | '\r' :: '\n' :: rest => [] :: lines rest
  | c :: rest => if isLineEnd c then [] :: lines rest else consFirst c (lines rest)

@[simp] theorem lines_nil : lines [] = [] := by simp [lines]

end Chars

namespace Text

/-- The lines of a text, without their ends. -/
def lines (s : String) : List String :=
  (Chars.lines s.toList).map String.ofList

/-- The lines of the stripped text, each stripped on its own. -/
def strippedLines (s : String) : List String :=
  (lines (strip s)).map strip

end Text

end AgentFlow

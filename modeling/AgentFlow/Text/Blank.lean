/-!
# Blank characters

Two classes of characters count as space.  `isWhiteSpace` is the Unicode property
`White_Space`; `isBlank` adds the four information separators.  Names, comments and lines are
trimmed of blanks, numbers written as text only of white space.

## Main definitions

* `isWhiteSpace`, `isBlank`: the two classes.
* `Chars.strip`, `Chars.stripRight`: a text without its outer blanks.
* `Text.strip`, `Text.stripRight`, `Text.isBlankText`: the same on strings.
-/

namespace AgentFlow

/-- The characters with the Unicode property `White_Space`. -/
def isWhiteSpace (c : Char) : Bool :=
  let n := c.toNat
  (9 ≤ n && n ≤ 13) || n == 0x20 || n == 0x85 || n == 0xa0 || n == 0x1680 ||
    (0x2000 ≤ n && n ≤ 0x200a) || n == 0x2028 || n == 0x2029 || n == 0x202f || n == 0x205f ||
    n == 0x3000

/-- White space, or one of the information separators U+001C to U+001F. -/
def isBlank (c : Char) : Bool :=
  isWhiteSpace c || (0x1c ≤ c.toNat && c.toNat ≤ 0x1f)

namespace Chars

/-- The text without the leading characters of a class. -/
def trimLeft (p : Char → Bool) (cs : List Char) : List Char :=
  cs.dropWhile p

/-- The text without the trailing characters of a class. -/
def trimRight (p : Char → Bool) (cs : List Char) : List Char :=
  (cs.reverse.dropWhile p).reverse

/-- The text without its leading and trailing characters of a class. -/
def trim (p : Char → Bool) (cs : List Char) : List Char :=
  trimRight p (trimLeft p cs)

/-- The text without trailing blanks. -/
def stripRight (cs : List Char) : List Char :=
  trimRight isBlank cs

/-- The text without leading and trailing blanks. -/
def strip (cs : List Char) : List Char :=
  trim isBlank cs

end Chars

namespace Text

/-- The text without leading and trailing blanks. -/
def strip (s : String) : String :=
  String.ofList (Chars.strip s.toList)

/-- The text without trailing blanks. -/
def stripRight (s : String) : String :=
  String.ofList (Chars.stripRight s.toList)

/-- There is nothing but blanks in the text. -/
def isBlankText (s : String) : Bool :=
  s.toList.all isBlank

@[simp] theorem toList_strip (s : String) : (strip s).toList = Chars.strip s.toList :=
  String.toList_ofList

@[simp] theorem toList_stripRight (s : String) :
    (stripRight s).toList = Chars.stripRight s.toList :=
  String.toList_ofList

end Text

end AgentFlow

import AgentFlow.Number.Binary64
import AgentFlow.Text.Blank
import AgentFlow.Text.Case

/-!
# Numbers written as decimal text

A number may be given as text: digits with an optional point and exponent, or the name of an
infinity or of NaN in any case.  White space around it is ignored, or else single underscores
between other characters are skipped, but not both in one text.

## Main definitions

* `Chars.digitsValue`: the value of a run of decimal digits.
* `Binary64.ofText?`: the number that a text denotes.
-/

namespace AgentFlow

/-- The ASCII decimal digits. -/
def isDecimalDigit (c : Char) : Bool :=
  '0' ≤ c && c ≤ '9'

namespace Chars

/-- The value of a run of decimal digits. -/
def digitsValue (cs : List Char) : Nat :=
  cs.foldl (fun n c => 10 * n + (c.toNat - '0'.toNat)) 0

/-- Splits off the leading decimal digits. -/
def spanDigits (cs : List Char) : List Char × List Char :=
  (cs.takeWhile isDecimalDigit, cs.dropWhile isDecimalDigit)

/-- Splits off a sign; `true` stands for minus. -/
def spanSign : List Char → Bool × List Char
  | '-' :: cs => (true, cs)
  | '+' :: cs => (false, cs)
  | cs => (false, cs)

/-- The exponent part of a number, up to the end of the text. -/
def exponent? : List Char → Option Int
  | [] => some 0
  | c :: cs =>
    if c = 'e' ∨ c = 'E' then
      let (negative, cs) := spanSign cs
      let (digits, rest) := spanDigits cs
      if digits.isEmpty ∨ ¬ rest.isEmpty then none
      else if negative then some (-(digitsValue digits : Int)) else some (digitsValue digits)
    else none

/-- Two underscores in a row. -/
def hasDoubleUnderscore : List Char → Bool
  | [] => false
  | '_' :: '_' :: _ => true
  | _ :: cs => hasDoubleUnderscore cs

/-- An underscore that does not stand alone between two other characters. -/
def hasLooseUnderscore (cs : List Char) : Bool :=
  cs.head? = some '_' || cs.getLast? = some '_' || hasDoubleUnderscore cs

end Chars

namespace Binary64

/-- The number that unsigned text denotes, given the sign. -/
def ofUnsigned? (negative : Bool) (cs : List Char) : Option Binary64 :=
  let name := Chars.lowerAscii cs
  if name = "inf".toList ∨ name = "infinity".toList then some (infinity negative)
  else if name = "nan".toList then some (quietNaN negative)
  else
    let (whole, rest) := Chars.spanDigits cs
    let (fraction, rest) :=
      match rest with
      | '.' :: rest => Chars.spanDigits rest
      | rest => ([], rest)
    if whole.isEmpty ∧ fraction.isEmpty then none
    else
      (Chars.exponent? rest).map fun e =>
        ofDecimal negative (Chars.digitsValue (whole ++ fraction)) (e - fraction.length)

/-- The number that text with an optional sign denotes. -/
def ofSigned? (cs : List Char) : Option Binary64 :=
  let (negative, cs) := Chars.spanSign cs
  ofUnsigned? negative cs

/-- The number that a text denotes. -/
def ofText? (s : String) : Option Binary64 :=
  let cs := s.toList
  match ofSigned? (Chars.trim isWhiteSpace cs) with
  | some x => some x
  | none =>
    -- white space counts here, so that a text with both has a fault
    if Chars.hasLooseUnderscore cs then none else ofSigned? (cs.filter (· ≠ '_'))

end Binary64

end AgentFlow

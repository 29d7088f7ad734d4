/-!
# Code units of sixteen bits

A character outside the basic plane is written as two code units, a surrogate pair.

## Main definitions

* `isHighSurrogate`, `isLowSurrogate`: the two halves of a pair.
* `unitChar`, `pairChar`: the character of one unit, and of a pair.
* `Utf16.chars`: the characters of a run of units.
-/

namespace AgentFlow

/-- The first half of a surrogate pair. -/
def isHighSurrogate (n : Nat) : Bool := 0xd800 ≤ n && n < 0xdc00

/-- The second half of a surrogate pair. -/
def isLowSurrogate (n : Nat) : Bool := 0xdc00 ≤ n && n < 0xe000

/-- The character of a code unit; a surrogate without its partner is replaced. -/
def unitChar (n : Nat) : Char :=
  if isHighSurrogate n || isLowSurrogate n then '\ufffd' else Char.ofNat n

/-- The character of a surrogate pair. -/
def pairChar (high low : Nat) : Char :=
  Char.ofNat (0x10000 + (high - 0xd800) * 0x400 + (low - 0xdc00))

namespace Utf16

/-- The characters of a run of code units. -/
def chars : List Nat → List Char
  | [] => []
  | [u] => [unitChar u]
  | u :: v :: us =>
    if isHighSurrogate u && isLowSurrogate v then pairChar u v :: chars us
    else unitChar u :: chars (v :: us)

end Utf16

end AgentFlow

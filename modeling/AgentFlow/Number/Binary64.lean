/-!
# Binary64 numbers

The numbers of the binary64 format, kept as their 64 bits.  A finite number is
`significand * 2 ^ power` up to its sign, and `roundRatio` gives the number nearest to a
fraction, the one with the even significand if two are equally near.

All arithmetic is on naturals and integers, so that every step can be computed and reasoned
about.

## Main definitions

* `Binary64`: a number, by its bits.
* `Binary64.significand`, `Binary64.power`, `Binary64.isNegative`, `Binary64.isFinite`.
* `Binary64.roundRatio`, `Binary64.ofDecimal`, `Binary64.ofInt?`: rounding to the format.
-/

namespace AgentFlow

/-- A binary64 number, by its bits. -/
structure Binary64 where
  /-- The sign bit, the eleven exponent bits and the 52 fraction bits. -/
  bits : UInt64
  deriving DecidableEq, Repr, Inhabited

namespace Binary64

/-- The number with a given sign and the other 63 bits. -/
def ofMagnitude (negative : Bool) (magnitude : Nat) : Binary64 :=
  ⟨UInt64.ofNat (if negative then Nat.pow 2 63 + magnitude else magnitude)⟩

/-- The 63 bits below the sign of an infinite number. -/
def infiniteMagnitude : Nat := 2047 * Nat.pow 2 52

/-- Zero without a sign. -/
def zero : Binary64 := ofMagnitude false 0

/-- One. -/
def one : Binary64 := ofMagnitude false (1023 * Nat.pow 2 52)

/-- The infinite number of a sign. -/
def infinity (negative : Bool) : Binary64 := ofMagnitude negative infiniteMagnitude

/-- The quiet NaN of a sign. -/
def quietNaN (negative : Bool) : Binary64 := ofMagnitude negative (infiniteMagnitude + Nat.pow 2 51)

/-- The sign bit is set. -/
def isNegative (x : Binary64) : Bool := Nat.pow 2 63 ≤ x.bits.toNat

/-- The 63 bits below the sign. -/
def magnitude (x : Binary64) : Nat := x.bits.toNat % Nat.pow 2 63

/-- Neither infinite nor NaN. -/
def isFinite (x : Binary64) : Bool := x.magnitude < infiniteMagnitude

/-- Not a number. -/
def isNaN (x : Binary64) : Bool := infiniteMagnitude < x.magnitude

/-- The eleven exponent bits. -/
def exponentField (x : Binary64) : Nat := x.magnitude / Nat.pow 2 52

/-- The integer part of a finite number's representation, with the implicit bit. -/
def significand (x : Binary64) : Nat :=
  if x.exponentField = 0 then x.magnitude else x.magnitude % Nat.pow 2 52 + Nat.pow 2 52

/-- The power of two that goes with the significand. -/
def power (x : Binary64) : Int :=
  if x.exponentField = 0 then -1074 else (x.exponentField : Int) - 1075

/-- Divides and rounds to the nearest integer, a half to the even neighbour. -/
def divNearest (num den : Nat) : Nat :=
  let q := num / den
  let r := num % den
  if den < 2 * r ∨ (2 * r = den ∧ q % 2 = 1) then q + 1 else q

/-- The power of two of the binary digit that a fraction starts with. -/
def leadingPower (num den : Nat) : Int :=
  let e : Int := (num.log2 : Int) - den.log2
  let reaches := if 0 ≤ e then den * Nat.pow 2 e.toNat ≤ num else den ≤ num * Nat.pow 2 (-e).toNat
  if reaches then e else e - 1

/-- The number nearest to the fraction `num / den`, for a positive `den`.

The last place is at `2 ^ p` with `p` at least `-1074`; counting the units of that place from
the smallest positive number gives the bits, also where rounding carries into the next
exponent. -/
def roundRatio (negative : Bool) (num den : Nat) : Binary64 :=
  if num = 0 then ofMagnitude negative 0
  else
    -- the last place of a normal number is 52 places below its first one
    let p : Int := max (leadingPower num den - 52) (-1074)
    let units :=
      if 0 ≤ p then divNearest num (den * Nat.pow 2 p.toNat)
      else divNearest (num * Nat.pow 2 (-p).toNat) den
    ofMagnitude negative (min ((p + 1074).toNat * Nat.pow 2 52 + units) infiniteMagnitude)

/-- The number nearest to `digits * 10 ^ exponent`.  Outside of `10 ^ (-400)` to `10 ^ 400`
nothing has to be computed. -/
def ofDecimal (negative : Bool) (digits : Nat) (exponent : Int) : Binary64 :=
  if digits = 0 then ofMagnitude negative 0
  else
    let top : Int := exponent + (Nat.toDigits 10 digits).length
    if 400 < top then infinity negative
    else if top < -400 then ofMagnitude negative 0
    else if 0 ≤ exponent then roundRatio negative (digits * Nat.pow 10 exponent.toNat) 1
    else roundRatio negative digits (Nat.pow 10 (-exponent).toNat)

/-- The number nearest to an integer, if the integer is within range. -/
def ofInt? (n : Int) : Option Binary64 :=
  let x := roundRatio (n < 0) n.natAbs 1
  if x.isFinite then some x else none

/-- The integer that a finite number is equal to, if there is one. -/
def toInt? (x : Binary64) : Option Int :=
  if ¬ x.isFinite then none
  else
    let signed (n : Nat) : Int := if x.isNegative then -(n : Int) else n
    if 0 ≤ x.power then some (signed (x.significand * Nat.pow 2 x.power.toNat))
    else
      let unit := Nat.pow 2 (-x.power).toNat
      if x.significand % unit = 0 then some (signed (x.significand / unit)) else none

end Binary64

end AgentFlow

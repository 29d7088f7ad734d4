import AgentFlow.Number.Binary64

/-!
# The shortest decimal of a number

A binary64 number is written with the fewest decimal digits that read back as the number, and
of those with the decimal nearest to it.  A decimal reads back as the number if it lies between
the midpoints to the two neighbouring numbers; a midpoint itself counts if the significand is
even.

## Main definitions

* `Shortest.decimal`: digits and exponent of the shortest decimal.
* `Shortest.Style`, `Shortest.write`: how the digits are laid out.
-/

namespace AgentFlow

namespace Shortest

/-- A positive real, its two midpoints, and whether the midpoints belong to it: all in units of
`num / den`. -/
structure Band where
  /-- The lower midpoint. -/
  low : Nat
  /-- The number itself. -/
  mid : Nat
  /-- The upper midpoint. -/
  high : Nat
  /-- Numerator of the unit. -/
  num : Nat
  /-- Denominator of the unit. -/
  den : Nat
  /-- The midpoints read back as the number. -/
  closed : Bool

/-- The band of a finite number other than zero.  The unit is a quarter of the last place, since
below a power of two the lower neighbour is half as far away as the upper one. -/
def band (x : Binary64) : Band :=
  let m := x.significand
  let q := x.power - 2
  let low := if x.exponentField ≤ 1 ∨ m ≠ Nat.pow 2 52 then 4 * m - 2 else 4 * m - 1
  { low := low, mid := 4 * m, high := 4 * m + 2
    num := if 0 ≤ q then Nat.pow 2 q.toNat else 1
    den := if 0 ≤ q then 1 else Nat.pow 2 (-q).toNat
    closed := m % 2 = 0 }

/-- The fraction `10 ^ e`. -/
def powerOfTen (e : Int) : Nat × Nat :=
  if 0 ≤ e then (Nat.pow 10 e.toNat, 1) else (1, Nat.pow 10 (-e).toNat)

/-- The number is below `10 ^ e`. -/
def Band.isBelow (b : Band) (e : Int) : Bool :=
  let (tn, td) := powerOfTen e
  b.mid * b.num * td < tn * b.den

/-- The number of digits in front of the decimal point: the least `e` with the number below
`10 ^ e`, looked for near an estimate. -/
def Band.point (b : Band) : Int :=
  let e : Int := (((b.mid * b.num).log2 : Int) - b.den.log2) * 30103 / 100000
  ([e - 1, e, e + 1, e + 2].find? b.isBelow).getD (e + 3)

/-- The decimal `d * 10 ^ e` reads back as the number. -/
def Band.holds (b : Band) (d : Nat) (e : Int) : Bool :=
  let (tn, td) := powerOfTen e
  let v := d * tn * b.den
  let low := b.low * b.num * td
  let high := b.high * b.num * td
  if b.closed then low ≤ v && v ≤ high else low < v && v < high

/-- The nearest of the two decimals with last place `10 ^ e` around the number, if one of them
reads back. -/
def Band.onGrid (b : Band) (e : Int) : Option Nat :=
  let (tn, td) := powerOfTen e
  let n := b.mid * b.num * td
  let u := tn * b.den
  let d := n / u
  match b.holds d e, b.holds (d + 1) e with
  | true, true =>
    let r := n % u
    some (if u < 2 * r ∨ (2 * r = u ∧ d % 2 = 1) then d + 1 else d)
  | true, false => some d
  | false, true => some (d + 1)
  | false, false => none

/-- Moves trailing zeros of the digits into the exponent. -/
def trimZeros (d : Nat) (e : Int) : Nat × Int :=
  if d ≠ 0 ∧ d % 10 = 0 then trimZeros (d / 10) (e + 1) else (d, e)
termination_by d
decreasing_by omega

/-- Digits and exponent of the shortest decimal of a finite number other than zero, without its
sign.  Seventeen digits are always enough. -/
def decimal (x : Binary64) : Nat × Int :=
  let b := band x
  let point := b.point
  let grids := (List.range 17).map fun n => point - (n + 1 : Nat)
  let found := grids.findSome? fun e => (b.onGrid e).map (·, e)
  let (d, e) := found.getD (0, 0)
  trimZeros d e

/-- How numbers are laid out. -/
structure Style where
  /-- Text of the infinite number. -/
  infinity : String
  /-- Text of NaN. -/
  nan : String

/-- Positional between `10 ^ (-4)` and `10 ^ 16`, with at least one digit after the point; outside
with a signed exponent of at least two digits. -/
def layout (digits : List Char) (point : Int) : List Char :=
  if -4 < point ∧ point ≤ 16 then
    if point ≤ 0 then "0.".toList ++ List.replicate (-point).toNat '0' ++ digits
    else if digits.length ≤ point.toNat then
      digits ++ List.replicate (point.toNat - digits.length) '0' ++ ".0".toList
    else digits.take point.toNat ++ '.' :: digits.drop point.toNat
  else
    let e := point - 1
    let size := Nat.toDigits 10 e.natAbs
    let size := if size.length < 2 then '0' :: size else size
    let mantissa :=
      match digits with
      | [d] => [d]
      | d :: ds => d :: '.' :: ds
      | [] => []
    mantissa ++ 'e' :: (if e < 0 then '-' else '+') :: size

/-- The text of a number. -/
def write (style : Style) (x : Binary64) : String :=
  let sign := if x.isNegative then "-" else ""
  if x.isNaN then style.nan
  else if ¬ x.isFinite then sign ++ style.infinity
  else if x.magnitude = 0 then sign ++ "0.0"
  else
    let (d, e) := decimal x
    let digits := Nat.toDigits 10 d
    sign ++ String.ofList (layout digits (e + digits.length))

end Shortest

end AgentFlow

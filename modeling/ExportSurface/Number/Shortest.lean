/-
The shortest decimal that names a binary number.

A binary number stands for the interval of reals that round to it.  The decimal written for it is
the point of that interval on the coarsest grid `10 ^ k`: it has the fewest digits of all decimals
that read back, and among the points of its grid it is the nearest.

Main definitions:

* `Shortest.gridPoint?` — the point of one grid inside the interval of a number, if there is one;
* `Shortest.decimal` — the point on the coarsest grid, with the grid's exponent;
* `Shortest.text` — the decimal written out in full, without an exponent;
* `Binary64.keyText?` — the property name that a number stands for.
-/

import ExportSurface.Number.Binary64

set_option autoImplicit false

namespace ExportSurface

namespace Shortest

/-- The neighbour below is half as far away as the one above. -/
def isNarrowBelow (x : Binary64) : Bool := x.fraction == 0 && 1 < x.biased

/-- The value of a number and the ends of its interval, in quarters of its last place. -/
def interval (x : Binary64) : Nat × Nat × Nat :=
  let m := 4 * x.mantissa
  (m - (if isNarrowBelow x then 1 else 2), m, m + 2)

/-- The point of the grid `10 ^ k` in the interval of a number: of the two grid points beside the
number the one inside, and of two inside the nearer, the upper on a tie.  The ends belong to the
interval exactly when the mantissa is even. -/
def gridPoint? (x : Binary64) (k : Int) : Option Nat :=
  let (low, mid, high) := interval x
  let (a, b) := Binary64.scale 1 1 (2 - x.exponent)
  let num := a * (if k < 0 then Nat.pow 10 (-k).toNat else 1)
  let den := b * (if k < 0 then 1 else Nat.pow 10 k.toNat)
  let c := mid * num / den
  let inside := fun p : Nat =>
    if x.mantissa % 2 = 0 then low * num ≤ p * den && p * den ≤ high * num
    else low * num < p * den && p * den < high * num
  let upperNearer := den ≤ 2 * (mid * num % den)
  match inside c, inside (c + 1) with
  | true, true => some (if upperNearer then c + 1 else c)
  | true, false => some c
  | false, true => some (c + 1)
  | false, false => none

/-- Search the grids downwards from `10 ^ k`. -/
def search (x : Binary64) : Nat → Int → Nat × Int
  | 0, k => (0, k)
  | n + 1, k =>
      match gridPoint? x k with
      | some c => (c, k)
      | none => search x n (k - 1)

/-- The shortest decimal `c * 10 ^ k` of a finite number other than zero.  No finite number
reaches `10 ^ 309`, and a grid of `10 ^ (-343)` meets every interval. -/
def decimal (x : Binary64) : Nat × Int := search x 653 309

/-- A natural number scaled by a power of ten, written positionally. -/
def positional (c : Nat) (k : Int) : String :=
  let digits := Nat.toDigits 10 c
  if 0 ≤ k then String.ofList (digits ++ List.replicate k.toNat '0')
  else
    let places := (-k).toNat
    if places < digits.length then
      let whole := digits.length - places
      String.ofList (digits.take whole ++ '.' :: digits.drop whole)
    else
      String.ofList ('0' :: '.' :: (List.replicate (places - digits.length) '0' ++ digits))

/-- The text of a number other than zero and the non-numbers. -/
def text (x : Binary64) : String :=
  let sign := if x.isNegative then "-" else ""
  if x.isFinite then
    let (c, k) := decimal x
    sign ++ positional c k
  else sign ++ "inf"

end Shortest

namespace Binary64

/-- The range of the integers that keys are written from. -/
def clampWord (n : Int) : Int := max (-Int.pow 2 63) (min (Int.pow 2 63 - 1) n)

/-- The property name that a number stands for; zero and the non-numbers stand for none.
Integers below `10 ^ 21` in magnitude are written as 64-bit words, past which they saturate; all
other numbers by their shortest decimal. -/
def keyText? (x : Binary64) : Option String :=
  if x.isZero || x.isNaN then none
  else
    match x.whole? with
    | some n =>
        if n.natAbs < Nat.pow 10 21 then some (toString (clampWord n)) else some (Shortest.text x)
    | none => some (Shortest.text x)

end Binary64

end ExportSurface

/-
Numbers in the 64-bit binary interchange format.

A number is kept as its 64 bits, so that every operation on it is exact arithmetic on natural
numbers and nothing depends on the floating-point unit.  A finite number of magnitude
`m * 2 ^ e` has a mantissa `m` below `2 ^ 53` and an exponent `e` of at least `-1074`.

Main definitions:

* `Binary64` — the bit pattern, with `Binary64.mantissa` and `Binary64.exponent` as its reading;
* `Binary64.ofRatio` — the number nearest to a quotient of natural numbers, ties to even;
* `Binary64.ofDecimal` — the number nearest to `digits * 10 ^ exponent`;
* `Binary64.whole?` — the integer that a number is, if it is one.
-/

set_option autoImplicit false

namespace ExportSurface

/-- A number in the 64-bit binary format, held as its bit pattern. -/
structure Binary64 where
  /-- Sign (1 bit), biased exponent (11 bits) and fraction (52 bits). -/
  bits : UInt64
  deriving DecidableEq, Inhabited

namespace Binary64

/-! ### Reading a bit pattern -/

/-- The low 52 bits. -/
def fraction (x : Binary64) : Nat := x.bits.toNat % Nat.pow 2 52

/-- The 11 bits above the fraction. -/
def biased (x : Binary64) : Nat := x.bits.toNat / Nat.pow 2 52 % Nat.pow 2 11

/-- The sign bit. -/
def isNegative (x : Binary64) : Bool := x.bits.toNat / Nat.pow 2 63 == 1

def isFinite (x : Binary64) : Bool := x.biased != 2047

def isNaN (x : Binary64) : Bool := x.biased == 2047 && x.fraction != 0

/-- Both zeros. -/
def isZero (x : Binary64) : Bool := x.biased == 0 && x.fraction == 0

/-- The integer `m` in the magnitude `m * 2 ^ e` of a finite number. -/
def mantissa (x : Binary64) : Nat :=
  if x.biased = 0 then x.fraction else Nat.pow 2 52 + x.fraction

/-- The integer `e` in the magnitude `m * 2 ^ e` of a finite number. -/
def exponent (x : Binary64) : Int :=
  if x.biased = 0 then -1074 else (x.biased : Int) - 1075

/-! ### Building a number -/

/-- The number with the given sign and the given lower 63 bits. -/
def ofMagnitude (negative : Bool) (magnitude : Nat) : Binary64 :=
  ⟨UInt64.ofNat (if negative then Nat.pow 2 63 + magnitude else magnitude)⟩

/-- The lower 63 bits of an infinity. -/
def infinityMagnitude : Nat := 2047 * Nat.pow 2 52

def infinity (negative : Bool) : Binary64 := ofMagnitude negative infinityMagnitude

def zero (negative : Bool) : Binary64 := ofMagnitude negative 0

/-- A quotient rounded to the nearest integer; an exact half goes to the even neighbour. -/
def roundDiv (num den : Nat) : Nat :=
  let q := num / den
  let r := num % den
  if 2 * r < den then q
  else if den < 2 * r then q + 1
  else if q % 2 = 0 then q else q + 1

/-- The fraction `num / den / 2 ^ e`, as a pair of natural numbers. -/
def scale (num den : Nat) (e : Int) : Nat × Nat :=
  if 0 ≤ e then (num, den * Nat.pow 2 e.toNat) else (num * Nat.pow 2 (-e).toNat, den)

/-- The exponent of the last place of the number nearest to `num / den`: the quotient of
`num / den` by `2 ^ e` has 53 binary digits before the point, unless the format has no room for
an exponent so small. -/
def unitExponent (num den : Nat) : Int :=
  let e : Int := (num.log2 : Int) - den.log2 - 53
  let (n, d) := scale num den e
  max (-1074) (if n / d < Nat.pow 2 53 then e else e + 1)

/-- The number nearest to `num / den` in magnitude, ties to even; past the largest finite number
it is infinite. -/
def ofRatio (negative : Bool) (num den : Nat) : Binary64 :=
  if num = 0 then zero negative else
    let e := unitExponent num den
    let (n, d) := scale num den e
    let magnitude := (e + 1074).toNat * Nat.pow 2 52 + roundDiv n d
    ofMagnitude negative (min magnitude infinityMagnitude)

/-- How many decimal digits a natural number is written with. -/
def decimalLength (n : Nat) : Nat := (Nat.toDigits 10 n).length

/-- The number nearest to `digits * 10 ^ e`.  Values that are certainly past either end of the
range are settled by their order of magnitude alone. -/
def ofDecimal (negative : Bool) (digits : Nat) (e : Int) : Binary64 :=
  if digits = 0 then zero negative else
    let order := (decimalLength digits : Int) + e
    if 320 < order then infinity negative
    else if order < -340 then zero negative
    else if 0 ≤ e then ofRatio negative (digits * Nat.pow 10 e.toNat) 1
    else ofRatio negative digits (Nat.pow 10 (-e).toNat)

/-- The number nearest to a natural number. -/
def ofNat (n : Nat) : Binary64 := ofRatio false n 1

/-! ### Arithmetic that reading a number needs -/

/-- The magnitude of a finite number as a quotient. -/
def ratio (x : Binary64) : Nat × Nat := scale x.mantissa 1 (-x.exponent)

/-- The rounded product of two non-negative finite numbers. -/
def mul (x y : Binary64) : Binary64 :=
  ofRatio false (x.ratio.1 * y.ratio.1) (x.ratio.2 * y.ratio.2)

/-- The rounded quotient of two non-negative finite numbers. -/
def div (x y : Binary64) : Binary64 :=
  ofRatio false (x.ratio.1 * y.ratio.2) (x.ratio.2 * y.ratio.1)

/-- The number with its sign bit set. -/
def negate (x : Binary64) : Binary64 := ofMagnitude (!x.isNegative) (x.bits.toNat % Nat.pow 2 63)

/-- The integer that a finite number is, if it is one. -/
def whole? (x : Binary64) : Option Int :=
  if x.isFinite then
    let (n, d) := x.ratio
    if n % d = 0 then
      some (if x.isNegative then -(n / d : Nat) else (n / d : Nat))
    else none
  else none

end Binary64

end ExportSurface

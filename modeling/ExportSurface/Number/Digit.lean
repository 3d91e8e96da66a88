/-
Digits and the numbers they write.

Main definitions:

* `Digit.hexValue?` — the value of a hexadecimal digit;
* `Digit.decimal` — the number that a row of decimal digits writes;
* `Digit.inBase?` — the number that a row of digits writes in a base up to sixteen.
-/

set_option autoImplicit false

namespace ExportSurface.Digit

/-- The value of a hexadecimal digit of either case. -/
def hexValue? (c : Char) : Option Nat :=
  if c.isDigit then some (c.toNat - '0'.toNat)
  else if 'a' ≤ c ∧ c ≤ 'f' then some (c.toNat - 'a'.toNat + 10)
  else if 'A' ≤ c ∧ c ≤ 'F' then some (c.toNat - 'A'.toNat + 10)
  else none

/-- The upper-case hexadecimal digit of a value below 16. -/
def hexUpper (n : Nat) : Char :=
  if n < 10 then Char.ofNat ('0'.toNat + n) else Char.ofNat ('A'.toNat + (n - 10))

/-- The lower-case hexadecimal digit of a value below 16. -/
def hexLower (n : Nat) : Char :=
  if n < 10 then Char.ofNat ('0'.toNat + n) else Char.ofNat ('a'.toNat + (n - 10))

/-- The number that the digits `a b c d` write in base sixteen. -/
def hex4? (a b c d : Char) : Option Nat := do
  let a ← hexValue? a
  let b ← hexValue? b
  let c ← hexValue? c
  let d ← hexValue? d
  return ((a * 16 + b) * 16 + c) * 16 + d

/-- The value of a decimal digit. -/
def value (c : Char) : Nat := c.toNat - '0'.toNat

/-- The number that a row of decimal digits writes. -/
def decimal (digits : List Char) : Nat := digits.foldl (fun n c => n * 10 + value c) 0

/-- The number that a row of digits writes in a base up to sixteen, after the number `n` that was
written so far. -/
def inBase? (base : Nat) : Nat → List Char → Option Nat
  | n, [] => some n
  | n, c :: rest =>
      match hexValue? c with
      | some d => if d < base then inBase? base (n * base + d) rest else none
      | none => none

end ExportSurface.Digit

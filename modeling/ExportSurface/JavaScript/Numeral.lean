/-
The value of a numeric literal.

Separators do not count.  A literal with a base mark is an integer of 63 bits; any other literal is
a decimal, rounded once to the nearest binary number, so a leading zero does not change the base.
Big integers and integers past 63 bits have no value here.

Main definitions:

* `Numeral.value?` — the value of a literal.
-/

import ExportSurface.Number.Binary64
import ExportSurface.Number.Digit

set_option autoImplicit false

namespace ExportSurface.JavaScript.Numeral

/-- An integer in a base, if it has digits and fits in 63 bits. -/
def integer? (base : Nat) (digits : List Char) : Option Binary64 :=
  if digits.isEmpty then none
  else
    match Digit.inBase? base 0 digits with
    | some n => if n < Nat.pow 2 63 then some (.ofNat n) else none
    | none => none

/-- The exponent part of a decimal, which is all that is left of it. -/
def exponent? (cs : List Char) : Option Int :=
  match cs with
  | [] => some 0
  | 'e' :: rest =>
      let (down, digits) :=
        match rest with
        | '+' :: rest => (false, rest)
        | '-' :: rest => (true, rest)
        | _ => (false, rest)
      if digits.isEmpty || !digits.all Char.isDigit then none
      else some (if down then -(Digit.decimal digits : Int) else Digit.decimal digits)
  | _ => none

/-- A decimal: digits before and after a point, at least one of them, and an exponent. -/
def decimal? (cs : List Char) : Option Binary64 :=
  let whole := cs.takeWhile Char.isDigit
  let (fraction, rest) :=
    match cs.dropWhile Char.isDigit with
    | '.' :: rest => (rest.takeWhile Char.isDigit, rest.dropWhile Char.isDigit)
    | rest => ([], rest)
  if whole.isEmpty && fraction.isEmpty then none
  else
    (exponent? rest).map fun e =>
      .ofDecimal false (Digit.decimal (whole ++ fraction)) (e - fraction.length)

/-- The value of a numeric literal. -/
def value? (source : String) : Option Binary64 :=
  match (source.toList.filter (· != '_')).map Char.toLower with
  | '0' :: 'x' :: digits => integer? 16 digits
  | '0' :: 'o' :: digits => integer? 8 digits
  | '0' :: 'b' :: digits => integer? 2 digits
  | cs => decimal? cs

end ExportSurface.JavaScript.Numeral

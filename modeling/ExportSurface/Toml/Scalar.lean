/-
Numbers, dates and truth values of TOML documents.

Such a value is a run of characters without blanks; a date and a time may be joined by a space.
Digits may be grouped by single underscores.  A decimal has no leading zero, integers have 64 bits,
and a float that is too large is refused unless it is negative.

Main definitions:

* `Scalar.number?` — an integer or a float;
* `Scalar.isDate`, `Scalar.isTime` — the forms of dates and times;
* `readScalar` — the value at the front of a text.
-/

import ExportSurface.Number.Digit
import ExportSurface.Toml.Value

set_option autoImplicit false

namespace ExportSurface.Toml

namespace Scalar

/-! ### Numbers -/

/-- Digits of a class, which single underscores may group; without the underscores. -/
def grouped? (isDigit : Char → Bool) : List Char → Option (List Char)
  | [] => none
  | [c] => if isDigit c then some [c] else none
  | c :: '_' :: rest =>
      if isDigit c then (grouped? isDigit rest).map (c :: ·) else none
  | c :: rest => if isDigit c then (grouped? isDigit rest).map (c :: ·) else none

/-- A sign and what follows it; the flag says that it is a minus. -/
def sign (cs : List Char) : Bool × List Char :=
  match cs with
  | '+' :: rest => (false, rest)
  | '-' :: rest => (true, rest)
  | _ => (false, cs)

/-- The digits of a decimal integer, which has no leading zero. -/
def whole? (cs : List Char) : Option (List Char) :=
  match grouped? Char.isDigit cs with
  | some ['0'] => some ['0']
  | some ('0' :: _) => none
  | digits => digits

def signed (negative : Bool) (n : Nat) : Int := if negative then -n else n

/-- An integer of 64 bits. -/
def word? (n : Int) : Option Value :=
  if -Int.pow 2 63 ≤ n ∧ n < Int.pow 2 63 then some (.integer n) else none

/-- An integer in a base, after the mark of the base. -/
def based? (base : Nat) (cs : List Char) : Option Value := do
  let digits ← grouped? (fun c => (Digit.hexValue? c).any (· < base)) cs
  let n ← Digit.inBase? base 0 digits
  word? n

/-- The parts of a text before and after the first character of a class. -/
def splitAtFirst (p : Char → Bool) (cs : List Char) : List Char × Option (List Char) :=
  match cs.dropWhile (!p ·) with
  | [] => (cs, none)
  | _ :: rest => (cs.takeWhile (!p ·), some rest)

/-- The exponent of a float; it is zero if it is missing. -/
def exponent? : Option (List Char) → Option Int
  | none => some 0
  | some cs => do
      let (negative, digits) := sign cs
      let digits ← grouped? Char.isDigit digits
      return signed negative (Digit.decimal digits)

/-- A float after its sign: a fraction or an exponent, or both. -/
def float? (negative : Bool) (cs : List Char) : Option Value := do
  let (mantissa, exponent) := splitAtFirst (fun c => c == 'e' || c == 'E') cs
  let (whole, fraction) := splitAtFirst (· == '.') mantissa
  if exponent.isNone && fraction.isNone then none
  let whole ← whole? whole
  let fraction ← match fraction with
    | some digits => grouped? Char.isDigit digits
    | none => some []
  let e ← exponent? exponent
  let x := Binary64.ofDecimal negative (Digit.decimal (whole ++ fraction)) (e - fraction.length)
  if x = .infinity false then none else return .float x

/-- A number. -/
def number? (cs : List Char) : Option Value :=
  match cs with
  | '0' :: 'x' :: digits => based? 16 digits
  | '0' :: 'o' :: digits => based? 8 digits
  | '0' :: 'b' :: digits => based? 2 digits
  | _ =>
      let (negative, rest) := sign cs
      if rest = ['i', 'n', 'f'] then some (.float (.infinity negative))
      else if rest = ['n', 'a', 'n'] then
        some (.float (.ofMagnitude negative (Binary64.infinityMagnitude + Nat.pow 2 51)))
      else
        match whole? rest with
        | some digits => word? (signed negative (Digit.decimal digits))
        | none => float? negative rest

/-! ### Dates -/

/-- A number of two digits within bounds, and what follows it. -/
def pair? (low high : Nat) (cs : List Char) : Option (Nat × List Char) :=
  match cs with
  | a :: b :: rest =>
      let n := Digit.decimal [a, b]
      if a.isDigit && b.isDigit && low ≤ n && n ≤ high then some (n, rest) else none
  | _ => none

/-- Step over a character that has to come next. -/
def expect? (c : Char) (cs : List Char) : Option (List Char) :=
  match cs with
  | d :: rest => if d = c then some rest else none
  | [] => none

def daysIn (year month : Nat) : Nat :=
  if month = 2 then
    if year % 4 = 0 ∧ (year % 100 ≠ 0 ∨ year % 400 = 0) then 29 else 28
  else if month = 4 ∨ month = 6 ∨ month = 9 ∨ month = 11 then 30
  else 31

/-- What follows a day of the calendar. -/
def afterDate? (cs : List Char) : Option (List Char) := do
  let year := cs.take 4
  if year.length ≠ 4 || !year.all Char.isDigit then none
  let rest ← expect? '-' (cs.drop 4)
  let (month, rest) ← pair? 1 12 rest
  let rest ← expect? '-' rest
  let (day, rest) ← pair? 1 31 rest
  if day ≤ daysIn (Digit.decimal year) month then some rest else none

/-- What follows a time of the day. -/
def afterTime? (cs : List Char) : Option (List Char) := do
  let (_, rest) ← pair? 0 23 cs
  let rest ← expect? ':' rest
  let (_, rest) ← pair? 0 59 rest
  let rest ← expect? ':' rest
  let (_, rest) ← pair? 0 60 rest
  match rest with
  | '.' :: fraction =>
      if fraction.head?.any Char.isDigit then some (fraction.dropWhile Char.isDigit) else none
  | _ => some rest

/-- Is a text an offset from the standard time, or empty? -/
def isOffset (cs : List Char) : Bool :=
  match cs with
  | [] => true
  | c :: rest =>
      if c = 'Z' || c = 'z' then rest.isEmpty
      else if c = '+' || c = '-' then
        (do
          let (_, rest) ← pair? 0 23 rest
          let rest ← expect? ':' rest
          let (_, rest) ← pair? 0 59 rest
          return rest.isEmpty).getD false
      else false

/-- Is a text a time of the day with an optional offset? -/
def isOffsetTime (cs : List Char) : Bool := (afterTime? cs).any isOffset

/-- Is a text a date alone? -/
def isDate (cs : List Char) : Bool := (afterDate? cs).any List.isEmpty

/-- Is a text a date and a time joined by a letter, a date, or a time? -/
def isMoment (cs : List Char) : Bool :=
  match afterDate? cs with
  | some [] => true
  | some (c :: rest) => (c == 'T' || c == 't') && isOffsetTime rest
  | none => (afterTime? cs).any List.isEmpty

end Scalar

/-- The characters that end a value without quotes. -/
def endsScalar (c : Char) : Bool :=
  isBlankOrBreak c || c == ',' || c == ']' || c == '\x7d' || c == '#'
where
  isBlankOrBreak (c : Char) : Bool := c == ' ' || c == '\t' || c == '\n' || c == '\r'

/-- The value that a run of characters writes. -/
def scalar? (cs : List Char) : Option Value :=
  if cs = "true".toList then some (.boolean true)
  else if cs = "false".toList then some (.boolean false)
  else if Scalar.isMoment cs then some (.date (String.ofList cs))
  else Scalar.number? cs

/-- The value without quotes at the front of a text, and what follows it. -/
def readScalar (cs : List Char) : Option (Value × List Char) := do
  let run := cs.takeWhile (!endsScalar ·)
  let rest := cs.dropWhile (!endsScalar ·)
  let value ← scalar? run
  match rest with
  | ' ' :: after =>
      let time := after.takeWhile (!endsScalar ·)
      if Scalar.isDate run && Scalar.isOffsetTime time then
        return (.date (String.ofList (run ++ ' ' :: time)), after.dropWhile (!endsScalar ·))
      else return (value, rest)
  | _ => return (value, rest)

end ExportSurface.Toml

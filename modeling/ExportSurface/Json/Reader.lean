/-
Reading JSON text.

A text is one value, between blanks, and nothing else.  The reader answers the first fault from the
left: the text ends too early, or a character is out of place.  A number past the range of the
binary format and an escaped lone surrogate are faults as well.  The nesting of arrays and objects
can be limited.

Main definitions:

* `Json.Fault` — why a text is no JSON;
* `Json.Reader.readNumber`, `Json.Reader.readString` — the two kinds of scalar with inner form;
* `Json.Reader.readValue` — one value at the front of a text;
* `Json.parse` — a whole text.
-/

import ExportSurface.Json.Value
import ExportSurface.Number.Digit
import ExportSurface.Text.CodePoint

set_option autoImplicit false

namespace ExportSurface.Json

/-- Why a text is no JSON. -/
inductive Fault where
  /-- The text ends before the value does. -/
  | endOfText
  /-- A character is out of place. -/
  | malformed
  deriving DecidableEq

namespace Reader

def isBlank (c : Char) : Bool := c == ' ' || c == '\n' || c == '\t' || c == '\r'

def skipBlanks (cs : List Char) : List Char := cs.dropWhile isBlank

/-- The fault of a text that goes on with something unexpected, or not at all. -/
def faultAt : List Char → Fault
  | [] => .endOfText
  | _ :: _ => .malformed

/-- Consume the given word. -/
def expectWord : List Char → List Char → Except Fault (List Char)
  | [], cs => .ok cs
  | _ :: _, [] => .error .endOfText
  | w :: ws, c :: cs => if w = c then expectWord ws cs else .error .malformed

/-! ### Numbers -/

/-- The largest significand that is kept exactly. -/
def maxSignificand : Nat := Nat.pow 2 64 - 1

/-- Append digits to a significand for as long as it stays in 64 bits; also the number of digits
that are left over. -/
def absorb (significand : Nat) : List Char → Nat × Nat
  | [] => (significand, 0)
  | c :: cs =>
      let next := significand * 10 + Digit.value c
      if next ≤ maxSignificand then absorb next cs else (significand, cs.length + 1)

/-- A power of ten as a binary number. -/
def powerOfTen (e : Nat) : Binary64 := .ofDecimal false 1 e

/-- Divide a tiny number down in steps of `10 ^ 308` until its exponent is in the table of powers;
what is then left of it may be zero. -/
def scaleDown : Nat → Binary64 → Int → Binary64 × Int
  | 0, x, e => (x, e)
  | steps + 1, x, e =>
      if e < -308 && !x.isZero then scaleDown steps (x.div (powerOfTen 308)) (e + 308) else (x, e)

/-- The number `significand * 10 ^ e`: the significand is rounded first, and its product or
quotient with the rounded power of ten once more.  Infinity is a fault. -/
def scaled (isNegative : Bool) (significand : Nat) (e : Int) : Except Fault Binary64 :=
  let x := Binary64.ofNat significand
  let signed := fun y : Binary64 => if isNegative then y.negate else y
  if x.isZero then .ok (signed x)
  else if 308 < e then .error .malformed
  else if 0 ≤ e then
    let y := x.mul (powerOfTen e.toNat)
    if y.isFinite then .ok (signed y) else .error .malformed
  else
    let (y, e) := scaleDown 4 x e
    if y.isZero then .ok (signed y) else .ok (signed (y.div (powerOfTen (-e).toNat)))

/-- The exponent part after its mark. -/
def readExponent (isNegative : Bool) (significand : Nat) (start : Int) (cs : List Char) :
    Except Fault (JsonNumber × List Char) :=
  let (down, cs) :=
    match cs with
    | '+' :: rest => (false, rest)
    | '-' :: rest => (true, rest)
    | _ => (false, cs)
  let digits := cs.takeWhile Char.isDigit
  let rest := cs.dropWhile Char.isDigit
  if digits.isEmpty then .error (faultAt rest)
  else
    let e := Digit.decimal digits
    if e ≤ Nat.pow 2 31 - 1 then
      match scaled isNegative significand (if down then start - e else start + e) with
      | .ok x => .ok (.binary x, rest)
      | .error fault => .error fault
    else if significand ≠ 0 && !down then .error .malformed
    else .ok (.binary (.zero isNegative), rest)

/-- The parts of a number after its integer part, which has contributed the given significand and
exponent.  Without such parts the number is `whole`. -/
def readTail (isNegative : Bool) (significand : Nat) (e : Int)
    (whole : Except Fault JsonNumber) (cs : List Char) : Except Fault (JsonNumber × List Char) :=
  match cs with
  | '.' :: cs =>
      let digits := cs.takeWhile Char.isDigit
      let rest := cs.dropWhile Char.isDigit
      if digits.isEmpty then .error (faultAt rest)
      else
        let (longer, left) := absorb significand digits
        let e := e - ((digits.length - left : Nat) : Int)
        match rest with
        | 'e' :: rest | 'E' :: rest => readExponent isNegative longer e rest
        | _ =>
            match scaled isNegative longer e with
            | .ok x => .ok (.binary x, rest)
            | .error fault => .error fault
  | 'e' :: cs | 'E' :: cs => readExponent isNegative significand e cs
  | _ =>
      match whole with
      | .ok n => .ok (n, cs)
      | .error fault => .error fault

/-- An integer as it stands; `-0` and integers past 64 bits are binary numbers. -/
def wholeNumber (isNegative : Bool) (n : Nat) : JsonNumber :=
  if !isNegative then .natural n
  else if 0 < n && n ≤ Nat.pow 2 63 then .negative n
  else .binary (Binary64.ofNat n).negate

/-- A number after its sign. -/
def readNumber (isNegative : Bool) (cs : List Char) : Except Fault (JsonNumber × List Char) :=
  let digits := cs.takeWhile Char.isDigit
  let rest := cs.dropWhile Char.isDigit
  match digits with
  | [] => .error (faultAt rest)
  | '0' :: _ :: _ => .error .malformed
  | _ =>
      let (significand, left) := absorb 0 digits
      let whole :=
        if left = 0 then .ok (wholeNumber isNegative significand)
        else (scaled isNegative significand left).map .binary
      readTail isNegative significand left whole rest

/-! ### Strings -/

/-- The fault of fewer than four characters after `\u`: the text ends too early, unless they take
four bytes. -/
def shortEscape (cs : List Char) : Fault :=
  if 4 ≤ (cs.map Char.utf8Size).foldr Nat.add 0 then .malformed else .endOfText

/-- The character that a one-letter escape stands for. -/
def simpleEscape? (c : Char) : Option Char :=
  match c with
  | '"' => some '"'
  | '\\' => some '\\'
  | '/' => some '/'
  | 'b' => some '\x08'
  | 'f' => some '\x0c'
  | 'n' => some '\n'
  | 'r' => some '\r'
  | 't' => some '\t'
  | _ => none

/-- A string after its opening quote; `acc` holds the characters so far, the last one first. -/
def readString : List Char → List Char → Except Fault (String × List Char)
  | [], _ => .error .endOfText
  | '"' :: rest, acc => .ok (String.ofList acc.reverse, rest)
  | '\\' :: 'u' :: a :: b :: c :: d :: rest, acc =>
      match Digit.hex4? a b c d with
      | none => .error .malformed
      | some n =>
          if CodePoint.isLowSurrogate n then .error .malformed
          else if CodePoint.isHighSurrogate n then
            match rest with
            | '\\' :: 'u' :: a :: b :: c :: d :: rest =>
                match Digit.hex4? a b c d with
                | none => .error .malformed
                | some low =>
                    if CodePoint.isLowSurrogate low then
                      readString rest (Char.ofNat (CodePoint.ofPair n low) :: acc)
                    else .error .malformed
            | '\\' :: 'u' :: rest => .error (shortEscape rest)
            | ['\\'] => .error .endOfText
            | _ => .error (faultAt rest)
          else readString rest (Char.ofNat n :: acc)
  | '\\' :: 'u' :: rest, _ => .error (shortEscape rest)
  | '\\' :: c :: rest, acc =>
      match simpleEscape? c with
      | some x => readString rest (x :: acc)
      | none => .error .malformed
  | ['\\'], _ => .error .endOfText
  | c :: rest, acc => if c.toNat < 0x20 then .error .malformed else readString rest (c :: acc)

/-! ### Values -/

mutual

/-- One value, through at most `fuel` calls; arrays and objects may nest `depth` deep. -/
def readValue (fuel depth : Nat) (cs : List Char) : Except Fault (Json × List Char) :=
  match fuel with
  | 0 => .error .endOfText
  | fuel + 1 =>
      match skipBlanks cs with
      | [] => .error .endOfText
      | '"' :: rest => do
          let (s, rest) ← readString rest []
          return (.string s, rest)
      | '[' :: rest =>
          match depth with
          | 0 => .error .malformed
          | depth + 1 =>
              match skipBlanks rest with
              | ']' :: rest => .ok (.array [], rest)
              | rest => readItems fuel depth rest []
      | '\x7b' :: rest =>
          match depth with
          | 0 => .error .malformed
          | depth + 1 =>
              match skipBlanks rest with
              | '\x7d' :: rest => .ok (.object [], rest)
              | rest => readFields fuel depth rest []
      | 'n' :: rest => (expectWord ['u', 'l', 'l'] rest).map fun rest => (.null, rest)
      | 't' :: rest => (expectWord ['r', 'u', 'e'] rest).map fun rest => (.bool true, rest)
      | 'f' :: rest => (expectWord ['a', 'l', 's', 'e'] rest).map fun rest => (.bool false, rest)
      | '-' :: rest => do
          let (n, rest) ← readNumber true rest
          return (.number n, rest)
      | c :: rest =>
          if c.isDigit then do
            let (n, rest) ← readNumber false (c :: rest)
            return (.number n, rest)
          else .error .malformed

/-- The items of an array from one of them on; `acc` holds the items so far, the last one first. -/
def readItems (fuel depth : Nat) (cs : List Char) (acc : List Json) :
    Except Fault (Json × List Char) :=
  match fuel with
  | 0 => .error .endOfText
  | fuel + 1 =>
      match readValue fuel depth cs with
      | .error fault => .error fault
      | .ok (item, rest) =>
          match skipBlanks rest with
          | ']' :: rest => .ok (.array (item :: acc).reverse, rest)
          | ',' :: rest => readItems fuel depth rest (item :: acc)
          | rest => .error (faultAt rest)

/-- The fields of an object from one of them on. -/
def readFields (fuel depth : Nat) (cs : List Char) (acc : List (String × Json)) :
    Except Fault (Json × List Char) :=
  match fuel with
  | 0 => .error .endOfText
  | fuel + 1 =>
      match skipBlanks cs with
      | '"' :: rest =>
          match readString rest [] with
          | .error fault => .error fault
          | .ok (key, rest) =>
              match skipBlanks rest with
              | ':' :: rest =>
                  match readValue fuel depth rest with
                  | .error fault => .error fault
                  | .ok (value, rest) =>
                      match skipBlanks rest with
                      | '\x7d' :: rest => .ok (.object ((key, value) :: acc).reverse, rest)
                      | ',' :: rest => readFields fuel depth rest ((key, value) :: acc)
                      | rest => .error (faultAt rest)
              | rest => .error (faultAt rest)
      | rest => .error (faultAt rest)

end

end Reader

/-- How deep arrays and objects nest in a text that is read with a limit. -/
def maxDepth : Nat := 127

/-- Read a text that is one value.  Every two calls of the reader consume a character. -/
def parse (depth : Nat) (text : String) : Except Fault Json :=
  let cs := text.toList
  match Reader.readValue (2 * cs.length + 2) depth cs with
  | .error fault => .error fault
  | .ok (v, rest) =>
      match Reader.skipBlanks rest with
      | [] => .ok v
      | _ :: _ => .error .malformed

end ExportSurface.Json

/-
The text of a string literal.

A backslash starts an escape.  Escapes that stand for no Unicode text — octal ones, surrogates
outside of a pair, and incomplete ones — leave the literal without a text.

Main definitions:

* `StringText.decode?` — the text of a string body;
* `StringText.value` — the value of a literal with its quotes: its text, or its source if it has
  none.
-/

import ExportSurface.Ast.Literal
import ExportSurface.Number.Digit
import ExportSurface.Text.CodePoint

set_option autoImplicit false

namespace ExportSurface.JavaScript.StringText

def hex2? (a b : Char) : Option Nat := do
  let a ← Digit.hexValue? a
  let b ← Digit.hexValue? b
  return a * 16 + b

/-- The escapes of one letter that stand for control characters. -/
def control? (c : Char) : Option Char :=
  match c with
  | 'n' => some '\n'
  | 't' => some '\t'
  | 'r' => some '\r'
  | 'b' => some '\x08'
  | 'f' => some '\x0c'
  | 'v' => some '\x0b'
  | _ => none

mutual

/-- The text of a string body. -/
def decode? : List Char → Option (List Char)
  | [] => some []
  | '\\' :: 'u' :: '\x7b' :: rest => decodeBraced? 0 false rest
  | '\\' :: 'u' :: a :: b :: c :: d :: rest =>
      match Digit.hex4? a b c d with
      | none => none
      | some n =>
          if CodePoint.isHighSurrogate n then
            match rest with
            | '\\' :: 'u' :: a :: b :: c :: d :: rest =>
                match Digit.hex4? a b c d with
                | some low =>
                    if CodePoint.isLowSurrogate low then
                      (decode? rest).map (Char.ofNat (CodePoint.ofPair n low) :: ·)
                    else none
                | none => none
            | _ => none
          else
            match CodePoint.char? n with
            | some x => (decode? rest).map (x :: ·)
            | none => none
  | '\\' :: 'u' :: _ => none
  | '\\' :: 'x' :: a :: b :: rest =>
      match hex2? a b with
      | some n => (decode? rest).map (Char.ofNat n :: ·)
      | none => none
  | '\\' :: 'x' :: _ => none
  | '\\' :: '\r' :: '\n' :: rest => decode? rest
  | '\\' :: c :: rest =>
      match control? c with
      | some x => (decode? rest).map (x :: ·)
      | none =>
          if c = '0' && !rest.head?.any Char.isDigit then (decode? rest).map ('\x00' :: ·)
          else if c.isDigit then none
          else if c = '\r' || c = '\n' || c.toNat = 0x2028 || c.toNat = 0x2029 then decode? rest
          else (decode? rest).map (c :: ·)
  | ['\\'] => none
  | c :: rest => (decode? rest).map (c :: ·)

/-- The text from inside an escape in braces on: the value of its digits so far, and whether there
are any. -/
def decodeBraced? (n : Nat) (some? : Bool) : List Char → Option (List Char)
  | [] => none
  | c :: rest =>
      if c = '\x7d' && some? then
        match CodePoint.char? n with
        | some x => (decode? rest).map (x :: ·)
        | none => none
      else
        match Digit.hexValue? c with
        | some d => decodeBraced? (n * 16 + d) true rest
        | none => none

end

/-- The value of a string literal with its quotes: its text, or its source if it has none. -/
def value (source : String) : Literal :=
  let body := (source.toList.drop 1).dropLast
  match decode? body with
  | some text => .string (String.ofList text)
  | none => .raw source

end ExportSurface.JavaScript.StringText

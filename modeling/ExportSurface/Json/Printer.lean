/-
Writing JSON values over several lines.

Each item and each field stands on a line of its own, two blanks further in than the value that
holds it; empty arrays and objects stay on one line.

Main definitions:

* `Json.quote` — a text in quotes;
* `Json.pretty` — the text of a value.
-/

import ExportSurface.Json.Value
import ExportSurface.Number.Digit
import ExportSurface.Number.Shortest

set_option autoImplicit false

namespace ExportSurface.Json

/-- A character inside quotes. -/
def escape (c : Char) : List Char :=
  match c with
  | '"' => ['\\', '"']
  | '\\' => ['\\', '\\']
  | '\n' => ['\\', 'n']
  | '\r' => ['\\', 'r']
  | '\t' => ['\\', 't']
  | '\x08' => ['\\', 'b']
  | '\x0c' => ['\\', 'f']
  | c =>
      if c.toNat < 0x20 then
        ['\\', 'u', '0', '0', Digit.hexLower (c.toNat / 16), Digit.hexLower (c.toNat % 16)]
      else [c]

/-- A text in quotes. -/
def quote (text : String) : String :=
  String.ofList ('"' :: text.toList.flatMap escape ++ ['"'])

/-- The text of a number. -/
def numberText : JsonNumber → String
  | .natural n => toString n
  | .negative n => "-" ++ toString n
  | .binary x => Shortest.text x

/-- A line break and the indentation of a level. -/
def newline (level : Nat) : String := "\n".pushn ' ' (2 * level)

mutual

/-- The text of a value at a level. -/
def prettyAt (level : Nat) : Json → String
  | .null => "null"
  | .bool b => if b then "true" else "false"
  | .number n => numberText n
  | .string s => quote s
  | .array [] => "[]"
  | .array (item :: items) =>
      "[" ++ newline (level + 1) ++ prettyAt (level + 1) item ++ prettyItems (level + 1) items ++
        newline level ++ "]"
  | .object [] => "\x7b\x7d"
  | .object ((key, value) :: fields) =>
      "\x7b" ++ newline (level + 1) ++ quote key ++ ": " ++ prettyAt (level + 1) value ++
        prettyFields (level + 1) fields ++ newline level ++ "\x7d"

/-- The items of an array after the first. -/
def prettyItems (level : Nat) : List Json → String
  | [] => ""
  | item :: items => "," ++ newline level ++ prettyAt level item ++ prettyItems level items

/-- The fields of an object after the first. -/
def prettyFields (level : Nat) : List (String × Json) → String
  | [] => ""
  | (key, value) :: fields =>
      "," ++ newline level ++ quote key ++ ": " ++ prettyAt level value ++ prettyFields level fields

end

/-- The text of a value. -/
def pretty (v : Json) : String := prettyAt 0 v

end ExportSurface.Json

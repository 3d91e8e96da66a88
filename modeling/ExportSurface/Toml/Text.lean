/-
Texts in TOML documents.

A text is written between double quotes, where a backslash starts an escape, or between single
quotes, where every character stands for itself.  Three quotes in place of one open a text that may
run over several lines; a line break right after them does not count.

A writer takes the plainest form that can hold the text.

Main definitions:

* `readText` — a text in any of the four forms;
* `Form.of` — the form in which a text is written;
* `writeText` — the written form of a text.
-/

import ExportSurface.Number.Digit
import ExportSurface.Text.CodePoint

set_option autoImplicit false

namespace ExportSurface.Toml

/-! ### Characters -/

/-- The characters that may stand in a text by themselves: all but control characters, of which
only the tab may. -/
def isPlain (c : Char) : Bool := c == '\t' || (0x20 ≤ c.toNat && c.toNat != 0x7F)

/-- The characters that end up as an escape, the line feed apart. -/
def isControl (c : Char) : Bool := (c.toNat < 0x20 && c != '\n') || c.toNat == 0x7F

/-- The blanks inside a line. -/
def isBlank (c : Char) : Bool := c == ' ' || c == '\t'

/-- The character that a one-letter escape stands for. -/
def escapeValue? : Char → Option Char
  | 'b' => some '\x08'
  | 't' => some '\t'
  | 'n' => some '\n'
  | 'f' => some '\x0c'
  | 'r' => some '\r'
  | '"' => some '"'
  | '\\' => some '\\'
  | _ => none

/-! ### Reading -/

/-- What a reader of texts answers: the text and what comes after it. -/
abbrev TextResult := Option (List Char × List Char)

/-- Put a character in front of the text that was read. -/
def TextResult.cons (c : Char) (r : TextResult) : TextResult :=
  Option.map (fun (text, rest) => (c :: text, rest)) r

mutual

/-- A text on one line, after its opening double quote. -/
def readBasic : List Char → TextResult
  | [] => none
  | '"' :: rest => some ([], rest)
  | '\\' :: 'u' :: rest => readBasicUnit 3 0 rest
  | '\\' :: 'U' :: rest => readBasicUnit 7 0 rest
  | '\\' :: c :: rest =>
      match escapeValue? c with
      | some value => (readBasic rest).cons value
      | none => none
  | c :: rest => if isPlain c then (readBasic rest).cons c else none

/-- The digits of an escape by number, `left` more after the next, and the text after it. -/
def readBasicUnit (left value : Nat) : List Char → TextResult
  | [] => none
  | c :: rest =>
      match Digit.hexValue? c with
      | none => none
      | some digit =>
          if left = 0 then
            match CodePoint.char? (16 * value + digit) with
            | some c => (readBasic rest).cons c
            | none => none
          else readBasicUnit (left - 1) (16 * value + digit) rest

end

mutual

/-- A text over several lines, after its opening double quotes.  After a backslash at the end of a
line, blanks and line breaks are skipped, which `skipping` says.  Up to two quotes may stand right
before the closing ones. -/
def readBasicLines (skipping : Bool) : List Char → TextResult
  | [] => none
  | '"' :: '"' :: '"' :: '"' :: '"' :: rest => some (['"', '"'], rest)
  | '"' :: '"' :: '"' :: '"' :: rest => some (['"'], rest)
  | '"' :: '"' :: '"' :: rest => some ([], rest)
  | '\\' :: 'u' :: rest => readLinesUnit 3 0 rest
  | '\\' :: 'U' :: rest => readLinesUnit 7 0 rest
  | '\\' :: c :: rest =>
      match escapeValue? c with
      | some value => (readBasicLines false rest).cons value
      | none =>
          if c = '\n' then readBasicLines true rest
          else if isBlank c || c = '\r' then readLineTail (c = '\r') rest
          else none
  | '\r' :: '\n' :: rest =>
      if skipping then readBasicLines true rest else (readBasicLines false rest).cons '\n'
  | c :: rest =>
      if skipping && (isBlank c || c = '\n') then readBasicLines true rest
      else if c = '\n' || isPlain c then (readBasicLines false rest).cons c
      else none

/-- The blanks between a backslash and the end of its line; `returned` says that a carriage return
was the last character. -/
def readLineTail (returned : Bool) : List Char → TextResult
  | [] => none
  | c :: rest =>
      if c = '\n' then readBasicLines true rest
      else if !returned && (isBlank c || c = '\r') then readLineTail (c = '\r') rest
      else none

/-- The digits of an escape by number in a text over several lines. -/
def readLinesUnit (left value : Nat) : List Char → TextResult
  | [] => none
  | c :: rest =>
      match Digit.hexValue? c with
      | none => none
      | some digit =>
          if left = 0 then
            match CodePoint.char? (16 * value + digit) with
            | some c => (readBasicLines false rest).cons c
            | none => none
          else readLinesUnit (left - 1) (16 * value + digit) rest

end

/-- A text on one line, after its opening single quote. -/
def readLiteral : List Char → TextResult
  | [] => none
  | c :: rest =>
      if c = '\'' then some ([], rest)
      else if isPlain c then (readLiteral rest).cons c
      else none

/-- A text over several lines, after its opening single quotes. -/
def readLiteralLines : List Char → TextResult
  | [] => none
  | '\'' :: '\'' :: '\'' :: '\'' :: '\'' :: rest => some (['\'', '\''], rest)
  | '\'' :: '\'' :: '\'' :: '\'' :: rest => some (['\''], rest)
  | '\'' :: '\'' :: '\'' :: rest => some ([], rest)
  | '\r' :: '\n' :: rest => (readLiteralLines rest).cons '\n'
  | c :: rest => if c = '\n' || isPlain c then (readLiteralLines rest).cons c else none

/-- Step over a line break. -/
def skipLineBreak : List Char → List Char
  | '\n' :: rest => rest
  | '\r' :: '\n' :: rest => rest
  | cs => cs

/-- A text in any of its forms. -/
def readText : List Char → TextResult
  | '"' :: '"' :: '"' :: rest => readBasicLines false (skipLineBreak rest)
  | '"' :: rest => readBasic rest
  | '\'' :: '\'' :: '\'' :: rest => readLiteralLines (skipLineBreak rest)
  | '\'' :: rest => readLiteral rest
  | _ => none

/-! ### Writing -/

/-- The forms in which a text is written. -/
inductive Form where
  | basic
  | literal
  | basicLines
  | literalLines
  /-- On one line, with escapes. -/
  | escaped
  /-- Over several lines, with escapes. -/
  | escapedLines
  deriving DecidableEq

/-- Does a character occur three times in a row? -/
def hasTriple (q : Char) : List Char → Bool
  | a :: b :: c :: rest => (a == q && b == q && c == q) || hasTriple q (b :: c :: rest)
  | _ => false

/-- The plainest form that holds a text. -/
def Form.of (cs : List Char) : Form :=
  let control := cs.any isControl
  if !control && !cs.contains '\\' && !cs.contains '"' && !cs.contains '\n' then .basic
  else if !control && !cs.contains '\'' && !cs.contains '\n' then .literal
  else if !control && !cs.contains '\\' && !hasTriple '"' cs then .basicLines
  else if !control && !hasTriple '\'' cs then .literalLines
  else if cs.contains '\n' then .escapedLines
  else .escaped

/-- The escape of a character that needs one, quotes and line feeds apart. -/
def escape (c : Char) : List Char :=
  match c with
  | '\x08' => ['\\', 'b']
  | '\t' => ['\\', 't']
  | '\x0c' => ['\\', 'f']
  | '\r' => ['\\', 'r']
  | '\\' => ['\\', '\\']
  | c =>
      if isControl c then
        ['\\', 'u', '0', '0', Digit.hexUpper (c.toNat / 16), Digit.hexUpper (c.toNat % 16)]
      else [c]

/-- A text with its escapes, on one line. -/
def escapeLine (cs : List Char) : List Char :=
  cs.flatMap fun c => if c = '\n' then ['\\', 'n'] else if c = '"' then ['\\', '"'] else escape c

/-- A text with its escapes, over several lines; of three quotes in a row the third one is escaped.
`quotes` counts the ones right before. -/
def escapeLines : Nat → List Char → List Char
  | _, [] => []
  | quotes, c :: rest =>
      if c = '"' then
        if quotes = 2 then '\\' :: '"' :: escapeLines 0 rest
        else '"' :: escapeLines (quotes + 1) rest
      else if c = '\n' then c :: escapeLines 0 rest
      else escape c ++ escapeLines 0 rest

/-- The line break after the opening quotes of a text that has one itself. -/
def openingBreak (cs : List Char) : List Char := if cs.contains '\n' then ['\n'] else []

/-- The written form of a text. -/
def writeText (cs : List Char) : List Char :=
  match Form.of cs with
  | .basic => ['"'] ++ cs ++ ['"']
  | .literal => ['\''] ++ cs ++ ['\'']
  | .basicLines => ['"', '"', '"'] ++ openingBreak cs ++ cs ++ ['"', '"', '"']
  | .literalLines => ['\'', '\'', '\''] ++ openingBreak cs ++ cs ++ ['\'', '\'', '\'']
  | .escaped => ['"'] ++ escapeLine cs ++ ['"']
  | .escapedLines => ['"', '"', '"'] ++ openingBreak cs ++ escapeLines 0 cs ++ ['"', '"', '"']

end ExportSurface.Toml

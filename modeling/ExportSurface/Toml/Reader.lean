/-
Reading TOML documents.

A document is a sequence of lines: a header, a key with its value, or nothing, each with an
optional comment.  Arrays may run over several lines and tables in braces may not.  Values nest,
and dotted keys run, less than eighty levels deep.

Main definitions:

* `readKey` — a dotted key;
* `readValue` — a value;
* `parse` — the fields of a document.
-/

import ExportSurface.Toml.Scalar
import ExportSurface.Toml.Text

set_option autoImplicit false

namespace ExportSurface.Toml

/-! ### Between values -/

def skipBlanks (cs : List Char) : List Char := cs.dropWhile isBlank

/-- Skip a comment, if there is one. -/
def skipComment : List Char → List Char
  | '#' :: rest => rest.dropWhile isPlain
  | cs => cs

/-- Step over the end of a line, which the end of the text is too. -/
def lineEnd? : List Char → Option (List Char)
  | [] => some []
  | '\n' :: rest => some rest
  | '\r' :: '\n' :: rest => some rest
  | _ => none

/-- Step over blanks, a comment and the end of the line. -/
def restOfLine? (cs : List Char) : Option (List Char) := lineEnd? (skipComment (skipBlanks cs))

/-- Skip blanks, line breaks and comments, as between the items of an array; `inComment` says that
the walk stands in a comment. -/
def skipFiller (inComment : Bool) : List Char → List Char
  | [] => []
  | '\r' :: '\n' :: rest => skipFiller false rest
  | c :: rest =>
      if c = '\n' then skipFiller false rest
      else if inComment then
        if isPlain c then skipFiller true rest else c :: rest
      else if isBlank c then skipFiller false rest
      else if c = '#' then skipFiller true rest
      else c :: rest

/-! ### Keys -/

/-- The limit on nested values and on the parts of a key. -/
def maxLevels : Nat := 80

/-- The characters of a key without quotes. -/
def isBareKey (c : Char) : Bool := c.isAlphanum || c == '_' || c == '-'

/-- One part of a key. -/
def readKeyPart (cs : List Char) : Option (String × List Char) :=
  match cs with
  | '"' :: rest => (readBasic rest).map fun (text, rest) => (String.ofList text, rest)
  | '\'' :: rest => (readLiteral rest).map fun (text, rest) => (String.ofList text, rest)
  | _ =>
      let bare := cs.takeWhile isBareKey
      if bare.isEmpty then none else some (String.ofList bare, cs.dropWhile isBareKey)

/-- The parts of a dotted key, with blanks around them. -/
def readKeyParts : Nat → List Char → Option (List String × List Char)
  | 0, _ => none
  | fuel + 1, cs => do
      let (part, rest) ← readKeyPart (skipBlanks cs)
      match skipBlanks rest with
      | '.' :: rest =>
          let (parts, rest) ← readKeyParts fuel rest
          return (part :: parts, rest)
      | rest => return ([part], rest)

/-- A dotted key. -/
def readKey (cs : List Char) : Option (List String × List Char) := do
  let (parts, rest) ← readKeyParts (cs.length + 1) cs
  if parts.length < maxLevels then return (parts, rest) else none

/-! ### Values -/

mutual

/-- A value that may hold `levels` levels of others. -/
def readValue : Nat → Nat → List Char → Option (Value × List Char)
  | 0, _, _ => none
  | fuel + 1, levels, cs =>
      match cs with
      | '[' :: rest => if levels = 0 then none else readItems fuel (levels - 1) rest []
      | '\x7b' :: rest =>
          if levels = 0 then none
          else
            match skipBlanks rest with
            | '\x7d' :: rest => some (.table .inline [], rest)
            | rest => readPairs fuel (levels - 1) rest []
      | c :: _ =>
          if c = '"' || c = '\'' then
            (readText cs).map fun (text, rest) => (.string (String.ofList text), rest)
          else readScalar cs
      | [] => none

/-- The items of an array up to its end; a comma may stand after the last one. -/
def readItems : Nat → Nat → List Char → List Value → Option (Value × List Char)
  | 0, _, _, _ => none
  | fuel + 1, levels, cs, acc =>
      match skipFiller false cs with
      | ']' :: rest => some (.array acc.reverse, rest)
      | cs => do
          let (item, rest) ← readValue fuel levels cs
          match skipFiller false rest with
          | ',' :: rest => readItems fuel levels rest (item :: acc)
          | ']' :: rest => return (.array (item :: acc).reverse, rest)
          | _ => none

/-- The pairs of a table in braces up to its end; there is at least one. -/
def readPairs : Nat → Nat → List Char → List (List String × Value) → Option (Value × List Char)
  | 0, _, _, _ => none
  | fuel + 1, levels, cs, acc => do
      let (key, rest) ← readKey cs
      match rest with
      | '=' :: rest =>
          let (value, rest) ← readValue fuel levels (skipBlanks rest)
          let acc := (key, value) :: acc
          match skipBlanks rest with
          | ',' :: rest => readPairs fuel levels rest acc
          | '\x7d' :: rest =>
              let fields ← Fields.insertAll? acc.reverse []
              return (.table .inline fields, rest)
          | _ => none
      | _ => none

end

/-! ### Documents -/

/-- A key with its value and the rest of their line. -/
def readPair (cs : List Char) : Option ((List String × Value) × List Char) := do
  let (key, rest) ← readKey cs
  match rest with
  | '=' :: rest =>
      let (value, rest) ← readValue (2 * rest.length + 2) (maxLevels - 1) (skipBlanks rest)
      let rest ← restOfLine? rest
      return ((key, value), rest)
  | _ => none

/-- A header and the rest of its line. -/
def readHeader (cs : List Char) : Option (Header × List Char) :=
  match cs with
  | '[' :: '[' :: rest => do
      let (path, rest) ← readKey rest
      match rest with
      | ']' :: ']' :: rest => return (.row path, ← restOfLine? rest)
      | _ => none
  | '[' :: rest => do
      let (path, rest) ← readKey rest
      match rest with
      | ']' :: rest => return (.table path, ← restOfLine? rest)
      | _ => none
  | _ => none

/-- A section with its pairs in the order of the text; they are gathered in reverse. -/
def Section.close (s : Section) : Section := { s with pairs := s.pairs.reverse }

/-- The sections of a document from a line on, the first of which is under way. -/
def readSections : Nat → Section → List Char → Option (List Section)
  | 0, _, _ => none
  | fuel + 1, current, cs =>
      match skipBlanks cs with
      | [] => some [current.close]
      | '[' :: rest => do
          let (header, rest) ← readHeader ('[' :: rest)
          let others ← readSections fuel { header } rest
          return current.close :: others
      | c :: rest =>
          if c = '#' || c = '\n' || c = '\r' then do
            let rest ← restOfLine? (c :: rest)
            readSections fuel current rest
          else do
            let (pair, rest) ← readPair (c :: rest)
            readSections fuel { current with pairs := pair :: current.pairs } rest

/-- The fields of a document; a mark of the encoding at its start does not count. -/
def parse (text : String) : Option Fields :=
  let cs := text.toList
  let cs := if cs.head? = some '\ufeff' then cs.drop 1 else cs
  (readSections (cs.length + 1) { header := .top } cs).bind Fields.ofSections?

end ExportSurface.Toml

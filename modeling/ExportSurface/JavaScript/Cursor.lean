/-
Walking over JavaScript source.

A cursor is the rest of a source text with the row it stands on; only a line feed starts a new row.
Blanks and comments separate tokens.  A statement may end without a semicolon, and whether it does
is decided by the characters after its last token alone: the end of the text or a closing brace
ends it, and so does a line break, unless the next line starts with a character that goes on with
an expression.

Main definitions:

* `Cursor`, `Cursor.skipTrivia` — a place in a text, and the next place that is neither a blank
  nor in a comment;
* `isBlank`, `isIdentifierStart`, `isIdentifierPart` — the classes of characters;
* `endsStatement` — does a statement end here without a semicolon?
-/

import ExportSurface.Ast.Node

set_option autoImplicit false

namespace ExportSurface.JavaScript

/-! ### Characters -/

/-- The blanks between tokens: ASCII blanks, space separators, and the invisible characters that
are no part of names. -/
def isBlank (c : Char) : Bool :=
  let n := c.toNat
  (0x09 ≤ n && n ≤ 0x0D) || n == 0x20 || n == 0xA0 || n == 0x1680 ||
    (0x2000 ≤ n && n ≤ 0x200B) || n == 0x2028 || n == 0x2029 || n == 0x202F || n == 0x205F ||
    n == 0x2060 || n == 0x3000 || n == 0xFEFF

def isAsciiBlank (c : Char) : Bool := (0x09 ≤ c.toNat && c.toNat ≤ 0x0D) || c == ' '

/-- The characters that end a line comment and separate lines. -/
def isLineBreak (c : Char) : Bool := c == '\n' || c.toNat == 0x2028 || c.toNat == 0x2029

/-- The ASCII characters that are tokens, or start them, without being part of a name. -/
def punctuation : List Char :=
  [':', ';', '\x60', '"', '\'', '@', '#', '.', ',', '|', '^', '&', '<', '=', '>', '+', '-', '*',
    '/', '\\', '%', '?', '!', '~', '(', ')', '[', ']', '\x7b', '\x7d']

/-- The characters of names, escapes apart. -/
def isIdentifierPart (c : Char) : Bool :=
  0x20 ≤ c.toNat && !isBlank c && !punctuation.contains c

def isIdentifierStart (c : Char) : Bool := isIdentifierPart c && !c.isDigit

/-! ### Places in a text -/

/-- The rest of a source text, and the row it starts on. -/
structure Cursor where
  rest : List Char
  row : Nat

namespace Cursor

/-- Step over one character. -/
def step (c : Char) (rest : List Char) (row : Nat) : Cursor :=
  ⟨rest, if c = '\n' then row + 1 else row⟩

/-- Step over a number of characters. -/
def drop : Nat → Cursor → Cursor
  | 0, cur => cur
  | _ + 1, ⟨[], row⟩ => ⟨[], row⟩
  | n + 1, ⟨c :: rest, row⟩ => drop n (step c rest row)

/-- The characters between a cursor and a later one. -/
def textUntil (start stop : Cursor) : String :=
  String.ofList (start.rest.take (start.rest.length - stop.rest.length))

/-- Where a walk over blanks and comments stands. -/
inductive Trivia where
  | between
  | line
  | block

/-- Skip blanks and comments. -/
def skipIn : Trivia → List Char → Nat → Cursor
  | _, [], row => ⟨[], row⟩
  | .between, '/' :: '/' :: rest, row => skipIn .line rest row
  | .between, '/' :: '*' :: rest, row => skipIn .block rest row
  | .between, c :: rest, row =>
      if isBlank c then skipIn .between rest (if c = '\n' then row + 1 else row)
      else ⟨c :: rest, row⟩
  | .line, c :: rest, row =>
      if isLineBreak c then skipIn .between rest (if c = '\n' then row + 1 else row)
      else skipIn .line rest row
  | .block, '*' :: '/' :: rest, row => skipIn .between rest row
  | .block, c :: rest, row => skipIn .block rest (if c = '\n' then row + 1 else row)

def skipTrivia (cur : Cursor) : Cursor := skipIn .between cur.rest cur.row

/-- The place after the next comment, if a comment comes next. -/
def afterComment? (cur : Cursor) : Option Cursor :=
  let rec inLine : List Char → Nat → Cursor
    | [], row => ⟨[], row⟩
    | c :: rest, row => if isLineBreak c then ⟨c :: rest, row⟩ else inLine rest row
  let rec inBlock : List Char → Nat → Cursor
    | [], row => ⟨[], row⟩
    | '*' :: '/' :: rest, row => ⟨rest, row⟩
    | c :: rest, row => inBlock rest (if c = '\n' then row + 1 else row)
  let rec go : List Char → Nat → Option Cursor
    | [], _ => none
    | '/' :: '/' :: rest, row => some (inLine rest row)
    | '/' :: '*' :: rest, row => some (inBlock rest row)
    | c :: rest, row =>
        if isBlank c then go rest (if c = '\n' then row + 1 else row) else none
  go cur.rest cur.row

end Cursor

/-! ### Statements that end without a semicolon -/

/-- What a walk over blanks and comments came across. -/
inductive Gap where
  /-- A slash that starts no comment. -/
  | slash
  /-- The end of a block comment without a line break in it. -/
  | sameLine
  /-- Something else. -/
  | other
  deriving DecidableEq

/-- Walk over blanks and comments.  With `through`, block comments are passed like all else;
without it the walk stops after one.  `broken` records a line break inside a block comment. -/
def scanGap (through : Bool) : Cursor.Trivia → Bool → List Char → Gap × List Char
  | _, _, [] => (.other, [])
  | .between, broken, '/' :: '/' :: rest => scanGap through .line broken rest
  | .between, broken, '/' :: '*' :: rest => scanGap through .block broken rest
  | .between, broken, c :: rest =>
      if isAsciiBlank c then scanGap through .between broken rest
      else (if c = '/' then .slash else .other, c :: rest)
  | .line, broken, c :: rest =>
      if c = '\n' then scanGap through .between broken rest
      else if isLineBreak c then (.other, c :: rest)
      else scanGap through .line broken rest
  | .block, broken, '*' :: '/' :: rest =>
      if through || rest.head? == some '/' then scanGap through .between broken rest
      else (if broken then .other else .sameLine, rest)
  | .block, broken, c :: rest => scanGap through .block (broken || isLineBreak c) rest

/-- Can a line that starts with the given text start a statement of its own?  Operators go on with
the expression before them, `in` and `instanceof` included; a decimal fraction, `++`, `--` and a
plain `!` do not. -/
def startsStatement (rest : List Char) : Bool :=
  match rest with
  | [] => true
  | '.' :: rest => rest.head?.any Char.isDigit
  | '+' :: rest => rest.head? == some '+'
  | '-' :: rest => rest.head? == some '-'
  | '!' :: rest => rest.head? != some '='
  | 'i' :: 'n' :: rest =>
      if !rest.head?.any Char.isAlpha then false
      else if "stanceof".toList.isPrefixOf rest then (rest.drop 8).head?.any Char.isAlpha
      else true
  | c :: _ => !("\x60,:;*%><=[(?^|&/".toList.contains c)

/-- Does a statement end before the given text without a semicolon?  `bare` says that the
statement does not end in an expression, so that a comment with a line break ends it by itself. -/
def endsStatementIn (bare : Bool) : Nat → List Char → Bool
  | 0, _ => false
  | _ + 1, [] => true
  | fuel + 1, c :: rest =>
      let onward := fun cs : List Char =>
        match cs with
        | [] => false
        | '\x7d' :: _ => true
        | c :: rest =>
            if isLineBreak c then
              match scanGap true .between false rest with
              | (.slash, _) => false
              | (_, next) => startsStatement next
            else if isAsciiBlank c then endsStatementIn bare fuel rest
            else false
      if c = '/' then
        match scanGap false .between false (c :: rest) with
        | (.slash, _) => false
        | (gap, next) =>
            if gap = .other && bare && next.head? != some ',' && next.head? != some '=' then true
            else onward next
      else onward (c :: rest)

/-- Does a statement end at the given place without a semicolon? -/
def endsStatement (bare : Bool) (cur : Cursor) : Bool :=
  endsStatementIn bare (cur.rest.length + 1) cur.rest

/-- The place at which a statement ends without a semicolon: here, or after comments that belong
to it. -/
def statementEnd? (bare : Bool) (cur : Cursor) : Option Cursor :=
  let rec go : Nat → Cursor → Option Cursor
    | 0, _ => none
    | fuel + 1, cur =>
        if endsStatement bare cur then some cur
        else
          match cur.afterComment? with
          | some next => go fuel next
          | none => none
  go (cur.rest.length + 1) cur

end ExportSurface.JavaScript

/-
Reading tokens in sequence.

A parser walks a cursor over the source and fails where the source is not of its form.  The rules of
the grammar refer to each other, so each rule is written for given rules of the nested constructs
(`Nested`); tying them together to a depth is left to the program rule.

Main definitions:

* `Parse` — a parser;
* `Parse.peek`, `Parse.take` — look at the next token, and step over it;
* `Parse.repeated` — a loop whose steps are bounded by the length of the source;
* `Parse.semicolon` — the end of a statement;
* `Nested` — the rules that other rules refer to.
-/

import ExportSurface.JavaScript.Token
import ExportSurface.JavaScript.Tree

set_option autoImplicit false

namespace ExportSurface.JavaScript

/-- A parser: it answers a value and the place after what it read. -/
abbrev Parse := StateT Cursor Option

namespace Parse

/-! ### Tokens -/

/-- The number of line feeds in a text. -/
def lineFeeds (text : String) : Nat := text.toList.count '\n'

/-- How many rows a token takes up beyond its first. -/
def extraRows : Token → Nat
  | .string source => lineFeeds source
  | _ => 0

/-- The next token and its lines; the cursor steps over it. -/
def take (operand : Bool) : Parse (Token × Span) := fun cur =>
  let start := cur.skipTrivia
  let (token, rest) := readToken operand start.rest
  let stop := start.row + extraRows token
  some ((token, ⟨start.row, stop⟩), ⟨rest, stop⟩)

/-- The next token; the cursor stays. -/
def peek (operand : Bool) : Parse Token := fun cur =>
  some ((readToken operand cur.skipTrivia.rest).1, cur)

/-- The row on which the next token starts. -/
def startRow : Parse Nat := fun cur => some (cur.skipTrivia.row, cur)

/-- The row on which the last token ended. -/
def stopRow : Parse Nat := fun cur => some (cur.row, cur)

/-- The lines from a row to the end of the last token. -/
def spanFrom (start : Nat) : Parse Span := fun cur => some (⟨start, cur.row⟩, cur)

/-- Does the next token start on the row where the last one ended? -/
def onSameRow : Parse Bool := fun cur => some (cur.skipTrivia.row == cur.row, cur)

def atPunctuator (text : String) : Parse Bool := do
  return (← peek false) == .punctuator text

def atWord (text : String) : Parse Bool := do
  return (← peek false) == .word text

/-- Step over a punctuator if it comes next. -/
def accept (text : String) : Parse Bool := do
  if ← atPunctuator text then
    let _ ← take false
    return true
  else return false

/-- Step over a word if it comes next. -/
def acceptWord (text : String) : Parse Bool := do
  if ← atWord text then
    let _ ← take false
    return true
  else return false

/-- Step over a punctuator that has to come next. -/
def expect (text : String) : Parse Unit := do
  if ← accept text then return () else failure

/-- Step over a word that has to come next. -/
def expectWord (text : String) : Parse Unit := do
  if ← acceptWord text then return () else failure

/-- A word that has to come next, with its lines. -/
def anyWord : Parse Name := do
  match ← take false with
  | (.word text, span) => return ⟨text, span⟩
  | _ => failure

/-! ### Control -/

/-- What a parser answers, without moving the cursor. -/
def lookahead {α : Type} (p : Parse α) : Parse α := do
  let cur ← get
  let a ← p
  set cur
  return a

/-- Repeat a step that answers either a new state or the result. -/
def iterate {σ α : Type} (step : σ → Parse (σ ⊕ α)) : Nat → σ → Parse α
  | 0, _ => failure
  | fuel + 1, s => do
      match ← step s with
      | .inl s => iterate step fuel s
      | .inr a => return a

/-! ### The end of a statement -/

/-- Does a statement end here without a semicolon? -/
def atStatementEnd (bare : Bool) : Parse Bool := fun cur =>
  some ((statementEnd? bare cur).isSome, cur)

/-- The end of a statement: without a semicolon if the source allows it, else the semicolon. -/
def semicolon (bare : Bool) : Parse Unit := fun cur =>
  match statementEnd? bare cur with
  | some cur => some ((), cur)
  | none => expect ";" cur

/-- The end of a statement that needs no semicolon at all. -/
def optionalSemicolon (bare : Bool) : Parse Unit := fun cur =>
  match statementEnd? bare cur with
  | some cur => some ((), cur)
  | none => (do let _ ← accept ";") cur

end Parse

/-- The rules that other rules refer to, and a bound on the steps of their loops. -/
structure Nested where
  steps : Nat
  /-- An expression without a comma; the flag says whether `in` is an operator. -/
  assign : Bool → Parse Expr
  statement : Parse Stmt
  /-- An element of markup. -/
  element : Parse Unit

/-- Repeat a step for as long as the source allows. -/
def Nested.repeated {σ α : Type} (g : Nested) (s : σ) (step : σ → Parse (σ ⊕ α)) : Parse α :=
  Parse.iterate step g.steps s

end ExportSurface.JavaScript

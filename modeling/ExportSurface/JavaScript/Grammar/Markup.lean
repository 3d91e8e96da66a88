/-
Templates and markup.

Both hold text with expressions in braces, so they are read character by character and hand the
expressions back to the grammar.

Main definitions:

* `template` — a template after its opening mark;
* `element` — an element of markup: a self-closing one, or one with children.
-/

import ExportSurface.JavaScript.Grammar.Basic

set_option autoImplicit false

namespace ExportSurface.JavaScript

open Parse

/-! ### Sequences of expressions -/

/-- The span from the start of one expression to the end of another. -/
def spanOver (first last : Expr) : Span := ⟨first.span.start, last.span.stop⟩

/-- An expression, commas included. -/
def expression (g : Nested) (allowIn : Bool) : Parse Expr := do
  let first ← g.assign allowIn
  g.repeated first fun e => do
    if ← accept "," then
      let next ← g.assign allowIn
      return .inl (.leaf "sequence_expression" (spanOver first next))
    else return .inr e

/-! ### Templates -/

/-- The place after the next closing mark or opening of a substitution, and whether it was the
mark; a backslash takes the next character with it. -/
def templateText : List Char → Nat → Option (Bool × Cursor)
  | [], _ => none
  | '\x60' :: rest, row => some (true, ⟨rest, row⟩)
  | '$' :: '\x7b' :: rest, row => some (false, ⟨rest, row⟩)
  | '\\' :: c :: rest, row => templateText rest (if c = '\n' then row + 1 else row)
  | c :: rest, row => templateText rest (if c = '\n' then row + 1 else row)

/-- A template after its opening mark. -/
def template (g : Nested) : Parse Unit :=
  g.repeated () fun _ => do
    let cur ← get
    match templateText cur.rest cur.row with
    | none => failure
    | some (true, cur) =>
        set cur
        return .inr ()
    | some (false, cur) =>
        set cur
        let _ ← expression g true
        expect "\x7d"
        return .inl ()

/-! ### Markup -/

/-- Skip characters of a class; they hold no line feeds. -/
def skipWhile (p : Char → Bool) : Parse Unit :=
  fun cur => some ((), ⟨cur.rest.dropWhile p, cur.row⟩)

def trivia : Parse Unit := fun cur => some ((), cur.skipTrivia)

/-- The next character; the cursor stays. -/
def peekChar : Parse (Option Char) := fun cur => some (cur.rest.head?, cur)

/-- Step over the given text if it comes next. -/
def acceptText (text : List Char) : Parse Bool := fun cur =>
  if text.isPrefixOf cur.rest then some (true, ⟨cur.rest.drop text.length, cur.row⟩)
  else some (false, cur)

def expectText (text : List Char) : Parse Unit := do
  if ← acceptText text then return () else failure

/-- Skip to the given character and over it. -/
def skipPast (stop : Char) : List Char → Nat → Option Cursor
  | [], _ => none
  | c :: rest, row =>
      if c = stop then some ⟨rest, row⟩ else skipPast stop rest (if c = '\n' then row + 1 else row)

def skipPastChar (stop : Char) : Parse Unit := fun cur =>
  (skipPast stop cur.rest cur.row).map ((), ·)

/-- Skip text up to the next tag or the next expression in braces. -/
def skipMarkupText : List Char → Nat → Cursor
  | [], row => ⟨[], row⟩
  | c :: rest, row =>
      if c = '<' || c = '\x7b' then ⟨c :: rest, row⟩
      else skipMarkupText rest (if c = '\n' then row + 1 else row)

/-- The characters of names in tags: those of identifiers, and marks that join them. -/
def isTagNamePart (c : Char) : Bool := isIdentifierPart c || c == '-' || c == ':' || c == '.'

/-- An expression in braces, after the opening brace; it may be spread, and it may be missing. -/
def braced (g : Nested) : Parse Unit := do
  if ← accept "\x7d" then return ()
  let _ ← accept "..."
  if ← accept "\x7d" then return ()
  let _ ← expression g true
  expect "\x7d"

/-- The value of an attribute. -/
def attributeValue (g : Nested) : Parse Unit := do
  trivia
  match ← peekChar with
  | some '"' =>
      expectText ['"']
      skipPastChar '"'
  | some '\'' =>
      expectText ['\'']
      skipPastChar '\''
  | some '\x7b' =>
      expectText ['\x7b']
      braced g
  | _ => g.element

/-- The attributes of a tag up to its end; answers whether the tag closes its element. -/
def attributes (g : Nested) : Parse Bool :=
  g.repeated () fun _ => do
    trivia
    if ← acceptText ['/'] then
      trivia
      expectText ['>']
      return .inr true
    else if ← acceptText ['>'] then return .inr false
    else if ← acceptText ['\x7b'] then
      braced g
      return .inl ()
    else
      let before ← get
      skipWhile isTagNamePart
      if (← get).rest.length == before.rest.length then failure
      let named ← get
      trivia
      if ← acceptText ['='] then attributeValue g else set named
      return .inl ()

/-- The children of an element up to its closing tag. -/
def children (g : Nested) : Parse Unit :=
  g.repeated () fun _ => do
    modify fun cur => skipMarkupText cur.rest cur.row
    if ← acceptText ['\x7b'] then
      braced g
      return .inl ()
    else
      let cur ← get
      expectText ['<']
      trivia
      if ← acceptText ['/'] then
        skipPastChar '>'
        return .inr ()
      else
        set cur
        g.element
        return .inl ()

/-- An element of markup; answers its kind. -/
def elementKind (g : Nested) : Parse String := do
  trivia
  expectText ['<']
  trivia
  if ← acceptText ['>'] then
    children g
    return "jsx_element"
  else
    skipWhile isTagNamePart
    if ← attributes g then return "jsx_self_closing_element"
    else
      children g
      return "jsx_element"

end ExportSurface.JavaScript

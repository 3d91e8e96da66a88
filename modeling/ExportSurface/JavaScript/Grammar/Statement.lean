/-
Statements and programs.

Declarations, exports and expression statements keep their parts; the other statements are leaves
and are only read to their end.  A program is a sequence of statements, and the rules are tied
together to a depth that the length of the source bounds.

Main definitions:

* `variableDeclaration`, `importStatement`, `exportStatement`, `statement` — the rules of
  statements;
* `nested` — the rules tied together to a depth;
* `program` — the statements of a source text.
-/

import ExportSurface.JavaScript.Grammar.Expression

set_option autoImplicit false

namespace ExportSurface.JavaScript

open Parse

/-! ### Declarations -/

/-- The target of a declared variable. -/
def variableTarget (g : Nested) : Parse Expr := do
  match ← take false with
  | (.word text, span) => return .name "identifier" ⟨text, span⟩
  | (.punctuator "\x7b", span) =>
      let properties ← objectTail g
      return (Expr.object (← spanFrom span.start) properties).asPattern
  | (.punctuator "[", span) =>
      items g "]"
      return (Expr.leaf "array" (← spanFrom span.start)).asPattern
  | _ => failure

/-- The variables of a declaration after its keyword. -/
def declarators (g : Nested) (allowIn : Bool) : Parse (List VariableDeclarator) :=
  g.repeated [] fun acc => do
    let target ← variableTarget g
    let init ← if ← accept "=" then some <$> g.assign allowIn else pure none
    let acc := ⟨target, init⟩ :: acc
    if ← accept "," then return .inl acc else return .inr acc.reverse

/-- A declaration of variables after its keyword. -/
def variableDeclaration (g : Nested) (kind : DeclarationKind) (start : Nat) : Parse Stmt := do
  let declared ← declarators g true
  semicolon (declared.getLast?.all (·.init.isNone))
  return .variableDeclaration (← spanFrom start) kind declared

/-- Does the word `let` start a declaration here, and is it no name? -/
def atLetDeclaration : Parse Bool := lookahead do
  let _ ← take false
  if ← atStatementEnd false then return false
  else
    match ← peek false with
    | .word text => return text != "in" && text != "instanceof" && text != "of"
    | .punctuator text => return text == "[" || text == "\x7b"
    | _ => return false

/-- Does a function with a name come next, from the word `function` on? -/
def atNamedFunction : Parse Bool := lookahead do
  if ← acceptWord "function" then
    let _ ← accept "*"
    match ← peek false with
    | .word _ => return true
    | _ => return false
  else return false

/-- Does a function declaration come next? -/
def atFunctionDeclaration : Parse Bool := lookahead do
  if ← acceptWord "async" then
    if ← atStatementEnd false then return false else atNamedFunction
  else atNamedFunction

/-- Does a class with a name come next? -/
def atClassDeclaration : Parse Bool := lookahead do
  if ← acceptWord "class" then return (← className).isSome else return false

/-- A function declaration. -/
def functionDeclaration (g : Nested) (start : Nat) : Parse Stmt := do
  let _ ← acceptWord "async"
  expectWord "function"
  let _ ← accept "*"
  let name ← anyWord
  functionTail g
  return .function (← spanFrom start) name

/-- A class declaration, from the word `class` on. -/
def classDeclaration (g : Nested) (start : Nat) : Parse Stmt := do
  expectWord "class"
  let name ← className
  let (bodySpan, methods) ← classTail g (heritage g)
  return .classDefinition (← spanFrom start) name bodySpan methods

/-! ### Imports and exports -/

/-- Skip tokens up to the end of a list in braces. -/
def skipBraces (g : Nested) : Parse Unit :=
  g.repeated () fun _ => do
    match ← take false with
    | (.punctuator "\x7d", _) => return .inr ()
    | (.finish, _) => failure
    | _ => return .inl ()

/-- The attributes and the end of a statement that names a module. -/
def moduleEnd (g : Nested) : Parse Unit := do
  if !(← atStatementEnd true) then
    let hasAttributes := (← atWord "with") || (← atWord "assert")
    if hasAttributes then
      let _ ← take false
      expect "\x7b"
      skipBraces g
  semicolon true

/-- An import after its word: what it binds, and the module. -/
def importTail (g : Nested) (start : Nat) : Parse Stmt := do
  g.repeated () fun _ => do
    match ← take false with
    | (.string _, _) => return .inr ()
    | (.punctuator "\x7b", _) =>
        skipBraces g
        return .inl ()
    | (.finish, _) => failure
    | _ => return .inl ()
  moduleEnd g
  return .leaf "import_statement" (← spanFrom start)

/-- A module after the word `from`, if there is one. -/
def fromModule (g : Nested) : Parse Bool := do
  if ← acceptWord "from" then
    match ← take false with
    | (.string _, _) =>
        moduleEnd g
        return true
    | _ => failure
  else return false

/-- The names of an export clause after its opening brace; a text in place of a local name is not
kept. -/
def exportClause (g : Nested) : Parse (List (Name × Span)) :=
  g.repeated [] fun acc => do
    if ← accept "\x7d" then return .inr acc.reverse
    else
      let (token, span) ← take false
      if ← acceptWord "as" then
        let _ ← take false
      let specifier ← spanFrom span.start
      if !(← atPunctuator "\x7d") then expect ","
      match token with
      | .word text => return .inl ((⟨text, span⟩, specifier) :: acc)
      | .string _ => return .inl acc
      | _ => failure

/-- An export after the word `default`. -/
def exportDefaultTail (g : Nested) (start : Nat) : Parse Stmt := do
  let inner ← startRow
  decorators g
  if ← atFunctionDeclaration then
    let declaration ← functionDeclaration g inner
    return .exportDefaultDeclaration (← spanFrom start) declaration
  else if ← atClassDeclaration then
    let declaration ← classDeclaration g inner
    return .exportDefaultDeclaration (← spanFrom start) declaration
  else
    let value ← g.assign true
    semicolon false
    return .exportDefaultValue (← spanFrom start) value

/-- An export after its word. -/
def exportTail (g : Nested) (start : Nat) : Parse Stmt := do
  if ← acceptWord "default" then exportDefaultTail g start
  else if ← accept "*" then
    if ← acceptWord "as" then
      let _ ← take false
    if ← fromModule g then return .exportNames (← spanFrom start) [] else failure
  else if ← accept "\x7b" then
    let names ← exportClause g
    if ← fromModule g then return .exportNames (← spanFrom start) []
    else
      semicolon true
      return .exportNames (← spanFrom start) names
  else
    let inner ← startRow
    decorators g
    let declaration ←
      if ← atFunctionDeclaration then functionDeclaration g inner
      else if ← atWord "class" then classDeclaration g inner
      else
        let keyword ← anyWord
        match DeclarationKind.ofKeyword? keyword.text with
        | some kind => variableDeclaration g kind inner
        | none => failure
    return .exportDeclaration (← spanFrom start) declaration

/-! ### Other statements -/

/-- An expression in parentheses. -/
def parenthesized (g : Nested) : Parse Unit := do
  expect "("
  let _ ← expression g true
  expect ")"

/-- A statement inside another. -/
def substatement (g : Nested) : Parse Unit := do
  let _ ← g.statement

/-- The clauses of a `for` after its opening parenthesis; answers the kind of the statement. -/
def forClauses (g : Nested) : Parse String := do
  match ← peek true with
  | .punctuator ";" => pure ()
  | .word text =>
      let declares ←
        if text = "let" then atLetDeclaration else pure (text = "var" || text = "const")
      if declares then
        let _ ← take false
        let _ ← declarators g false
      else
        let _ ← expression g false
  | _ =>
      let _ ← expression g false
  let iterates := (← atWord "of") || (← atWord "in")
  if iterates then
    let _ ← take false
    let _ ← expression g true
    expect ")"
    return "for_in_statement"
  else
    expect ";"
    if !(← atPunctuator ";") then
      let _ ← expression g true
    expect ";"
    if !(← atPunctuator ")") then
      let _ ← expression g true
    expect ")"
    return "for_statement"

/-- The clauses of a `switch` after its opening brace. -/
def switchClauses (g : Nested) : Parse Unit :=
  g.repeated () fun _ => do
    if ← accept "\x7d" then return .inr ()
    else if ← acceptWord "case" then
      let _ ← expression g true
      expect ":"
      return .inl ()
    else if ← acceptWord "default" then
      expect ":"
      return .inl ()
    else
      substatement g
      return .inl ()

/-- The clauses of a `try` after its block. -/
def tryClauses (g : Nested) : Parse Unit := do
  if ← acceptWord "catch" then
    if ← accept "(" then items g ")"
    block g
  if ← acceptWord "finally" then block g

/-- The end of a statement that may carry a value. -/
def valueAndEnd (g : Nested) : Parse Unit := do
  let ended := (← atStatementEnd true) || (← atPunctuator ";")
  if ended then semicolon true
  else
    let _ ← expression g true
    semicolon false

/-- The end of a statement that may carry a label. -/
def labelAndEnd : Parse Unit := do
  let ended := (← atStatementEnd true) || (← atPunctuator ";")
  if !ended then
    let _ ← anyWord
  semicolon true

/-- The statements that are known by their first word and only read to their end: the kind and the
rule for what follows the word. -/
def keywordStatement? (g : Nested) (word : String) : Option (Parse String) :=
  match word with
  | "if" => some do
    parenthesized g
    substatement g
    if ← acceptWord "else" then substatement g
    return "if_statement"
  | "for" => some do
    let _ ← acceptWord "await"
    expect "("
    let kind ← forClauses g
    substatement g
    return kind
  | "while" => some do
    parenthesized g
    substatement g
    return "while_statement"
  | "do" => some do
    substatement g
    expectWord "while"
    parenthesized g
    optionalSemicolon true
    return "do_statement"
  | "switch" => some do
    parenthesized g
    expect "\x7b"
    switchClauses g
    return "switch_statement"
  | "try" => some do
    block g
    tryClauses g
    return "try_statement"
  | "with" => some do
    parenthesized g
    substatement g
    return "with_statement"
  | "return" => some do
    valueAndEnd g
    return "return_statement"
  | "throw" => some do
    let _ ← expression g true
    semicolon false
    return "throw_statement"
  | "break" => some do
    labelAndEnd
    return "break_statement"
  | "continue" => some do
    labelAndEnd
    return "continue_statement"
  | "debugger" => some do
    semicolon true
    return "debugger_statement"
  | _ => none

/-- An expression statement. -/
def expressionStatement (g : Nested) (start : Nat) : Parse Stmt := do
  let value ← expression g true
  semicolon false
  return .expression (← spanFrom start) value

/-- Does a label come next? -/
def atLabel : Parse Bool := lookahead do
  let _ ← take false
  atPunctuator ":"

/-- A statement that starts with the given word, which comes next. -/
def wordStatement (g : Nested) (start : Nat) (word : String) : Parse Stmt := do
  match keywordStatement? g word with
  | some tail =>
      let _ ← take false
      let kind ← tail
      return .leaf kind (← spanFrom start)
  | none =>
      if ← atLabel then
        let _ ← take false
        expect ":"
        substatement g
        return .leaf "labeled_statement" (← spanFrom start)
      else if word = "var" || word = "const" then
        let _ ← take false
        variableDeclaration g (if word = "var" then .var else .const) start
      else if word = "let" then
        if ← atLetDeclaration then
          let _ ← take false
          variableDeclaration g .let start
        else expressionStatement g start
      else if word = "function" || word = "async" then
        if ← atFunctionDeclaration then functionDeclaration g start
        else expressionStatement g start
      else if word = "class" then
        if ← atClassDeclaration then classDeclaration g start else expressionStatement g start
      else if word = "import" then
        let isExpression ← lookahead do
          let _ ← take false
          return (← atPunctuator "(") || (← atPunctuator ".")
        if isExpression then expressionStatement g start
        else
          let _ ← take false
          importTail g start
      else if word = "export" then
        let isName ← lookahead do
          let _ ← take false
          atStatementEnd false
        if isName then expressionStatement g start
        else
          let _ ← take false
          exportTail g start
      else expressionStatement g start

/-- The place at the end of the line, if a comment in the form of markup starts here. -/
def afterMarkupComment? (cur : Cursor) : Option Cursor :=
  let start := cur.skipTrivia
  if "<!--".toList.isPrefixOf start.rest || "-->".toList.isPrefixOf start.rest then
    some ⟨start.rest.dropWhile (!isLineBreak ·), start.row⟩
  else none

/-- A statement. -/
def statement (g : Nested) : Parse Stmt := do
  let start ← startRow
  match afterMarkupComment? (← get) with
  | some cur =>
      set cur
      return .leaf "html_comment" (← spanFrom start)
  | none =>
      match ← peek true with
      | .punctuator ";" =>
          let _ ← take true
          return .leaf "empty_statement" (← spanFrom start)
      | .punctuator "\x7b" =>
          block g
          return .leaf "statement_block" (← spanFrom start)
      | .punctuator "@" =>
          decorators g
          if ← acceptWord "export" then exportTail g start else classDeclaration g start
      | .word word => wordStatement g start word
      | _ => expressionStatement g start

/-! ### Programs -/

/-- The rules tied together to a depth. -/
def nested (steps : Nat) : Nat → Nested
  | 0 => { steps, assign := fun _ => failure, statement := failure, element := failure }
  | depth + 1 =>
      { steps
        assign := fun allowIn cur => assignment (nested steps depth) allowIn cur
        statement := fun cur => statement (nested steps depth) cur
        element := fun cur => (elementKind (nested steps depth) cur).map fun (_, cur) => ((), cur) }

/-- The statements from a place on.  Where no statement can be read, the rest of the source is one
leaf. -/
def statementsFrom (g : Nested) : Nat → Cursor → List Stmt
  | 0, _ => []
  | fuel + 1, cur =>
      let start := cur.skipTrivia
      if start.rest.isEmpty then []
      else
        match g.statement cur with
        | some (s, next) => s :: statementsFrom g fuel next
        | none => [.leaf "ERROR" ⟨start.row, start.row + start.rest.count '\n'⟩]

/-- The statements of a source text.  A first line that starts with `#!` is a statement of its
own. -/
def program (source : String) : List Stmt :=
  let cs := source.toList
  let g := nested (cs.length + 2) (2 * cs.length + 2)
  match cs with
  | '#' :: '!' :: rest =>
      .leaf "hash_bang_line" ⟨1, 1⟩ :: statementsFrom g g.steps ⟨rest.dropWhile (· ≠ '\n'), 1⟩
  | _ => statementsFrom g g.steps ⟨cs, 1⟩

end ExportSurface.JavaScript

/-
Expressions.

Lowering looks into members, assignments, functions, classes, objects and literals; operators and
calls only have a kind and an extent, so a chain of binary operators is read as one leaf whatever
the precedence inside it.  Parameters and patterns have the form of arguments and literals and are
read by the same rules; what was read as a parenthesis becomes an arrow function when an arrow
follows.

Main definitions:

* `functionTail`, `classTail`, `objectLiteral` — the constructs with bodies;
* `primary`, `construction`, `chain`, `unary`, `binary`, `conditional` — expressions by rising
  extent;
* `assignment` — an expression without a comma.
-/

import ExportSurface.JavaScript.Grammar.Markup
import ExportSurface.JavaScript.Numeral
import ExportSurface.JavaScript.StringText

set_option autoImplicit false

namespace ExportSurface.JavaScript

open Parse

/-! ### Lists and bodies -/

/-- Items between commas up to a closing mark, which is stepped over.  Items may be spread, and
may be missing. -/
def items (g : Nested) (close : String) : Parse Unit :=
  g.repeated () fun _ => do
    if ← accept close then return .inr ()
    else if ← accept "," then return .inl ()
    else
      let _ ← accept "..."
      let _ ← g.assign true
      if ← atPunctuator close then return .inl ()
      expect ","
      return .inl ()

/-- The statements of a block after its opening brace. -/
def blockTail (g : Nested) : Parse Unit :=
  g.repeated () fun _ => do
    if ← accept "\x7d" then return .inr ()
    else
      let _ ← g.statement
      return .inl ()

/-- A block. -/
def block (g : Nested) : Parse Unit := do
  expect "\x7b"
  blockTail g

/-- The parameters and the body of a function. -/
def functionTail (g : Nested) : Parse Unit := do
  expect "("
  items g ")"
  block g

/-! ### Keys and methods -/

def numberLiteral (source : String) : Literal :=
  match Numeral.value? source with
  | some value => .number value
  | none => .raw source

/-- The key of a property or method, and whether it is computed. -/
def propertyKey (g : Nested) : Parse (Expr × Bool) := do
  match ← take false with
  | (.word text, span) => return (.name "property_identifier" ⟨text, span⟩, false)
  | (.privateName text, span) => return (.name "private_property_identifier" ⟨text, span⟩, false)
  | (.string source, span) => return (.literal "string" span (StringText.value source), false)
  | (.number source, span) => return (.literal "number" span (numberLiteral source), false)
  | (.punctuator "[", _) =>
      let inner ← g.assign true
      expect "]"
      return (inner, true)
  | _ => failure

/-- Does the next token start the key of a property, so that the word before it was a modifier? -/
def atKey : Parse Bool := do
  match ← peek false with
  | .word _ | .privateName _ | .string _ | .number _ => return true
  | .punctuator text => return text == "[" || text == "*"
  | _ => return false

/-- Step over the words `async`, `get` and `set` and the mark `*` in front of a key.  In a class,
a line break after such a word makes it a key of its own. -/
def modifiers (g : Nested) (inClass : Bool) : Parse Unit :=
  g.repeated () fun _ => do
    match ← peek false with
    | .punctuator "*" =>
        let _ ← take false
        return .inr ()
    | .word text =>
        if text == "async" || text == "get" || text == "set" then
          let isModifier ← lookahead do
            let _ ← take false
            if inClass && (← atStatementEnd true) then return false else atKey
          if isModifier then
            let _ ← take false
            return .inl ()
          else return .inr ()
        else return .inr ()
    | _ => return .inr ()

/-- The rest of a method after its key. -/
def methodTail (g : Nested) (start : Nat) (key : Expr) (computed : Bool) : Parse Method := do
  functionTail g
  return .mk key computed (← spanFrom start)

/-! ### Objects -/

/-- One entry of an object literal; entries that are not kept give none. -/
def objectEntry (g : Nested) : Parse (Option Property) := do
  let start ← startRow
  if ← accept "..." then
    let _ ← g.assign true
    return none
  else
    modifiers g false
    let word ← peek false
    let (key, computed) ← propertyKey g
    if ← atPunctuator "(" then
      return some (.method (← methodTail g start key computed))
    else if ← accept ":" then
      return some (.pair key computed (← g.assign true))
    else
      match word, key with
      | .word _, .name _ name =>
          if ← accept "=" then
            let _ ← g.assign true
            return none
          else return some (.shorthand name)
      | _, _ => failure

/-- An object literal after its opening brace. -/
def objectTail (g : Nested) : Parse (List Property) :=
  g.repeated [] fun acc => do
    if ← accept "\x7d" then return .inr acc.reverse
    else
      let entry ← objectEntry g
      if !(← atPunctuator "\x7d") then expect ","
      return .inl (entry.toList ++ acc)

/-! ### Classes -/

/-- The name after a point. -/
def memberName : Parse Name := do
  match ← take false with
  | (.word text, span) | (.privateName text, span) => return ⟨text, span⟩
  | _ => failure

/-- A decorator after its mark: a dotted name, which may be called, or an expression in
parentheses. -/
def decoratorTail (g : Nested) : Parse Unit := do
  if ← accept "(" then items g ")"
  else
    let _ ← anyWord
    g.repeated () fun _ => do
      if ← accept "." then
        let _ ← memberName
        return .inl ()
      else return .inr ()
    if ← accept "(" then items g ")"

/-- Step over the decorators in front of a class or member. -/
def decorators (g : Nested) : Parse Unit :=
  g.repeated () fun _ => do
    if ← accept "@" then
      decoratorTail g
      return .inl ()
    else return .inr ()

/-- The place after `static get` with a line break behind it. -/
def afterStaticGet? (cur : Cursor) : Option Cursor :=
  let start := cur.skipTrivia
  if "static".toList.isPrefixOf start.rest then
    let static' := start.drop 6
    let blanks := static'.rest.takeWhile isAsciiBlank
    let get' := static'.drop blanks.length
    if !blanks.isEmpty && "get".toList.isPrefixOf get'.rest then
      let after := get'.drop 3
      let gap := after.rest.takeWhile isAsciiBlank
      if gap.contains '\n' then some (after.drop gap.length) else none
    else none
  else none

/-- One member of a class body.  Fields and static blocks give none. -/
def classMember (g : Nested) : Parse (Option Method) := do
  let start ← startRow
  decorators g
  match afterStaticGet? (← get) with
  | some cur => set cur
  | none =>
      let isStatic ← lookahead do
        if ← acceptWord "static" then
          if ← atStatementEnd true then return false
          else return (← atKey) || (← atPunctuator "\x7b")
        else return false
      if isStatic then
        let _ ← take false
  if ← atPunctuator "\x7b" then
    block g
    return none
  else
    modifiers g true
    let (key, computed) ← propertyKey g
    if ← atPunctuator "(" then
      return some (← methodTail g start key computed)
    else
      if ← accept "=" then
        let _ ← g.assign true
        semicolon false
      else semicolon true
      return none

/-- The heritage and the body of a class, given the rule for the superclass: the lines of the body,
and the methods. -/
def classTail (g : Nested) (heritage : Parse Unit) : Parse (Span × List Method) := do
  if ← acceptWord "extends" then heritage
  let start ← startRow
  expect "\x7b"
  let methods ← g.repeated [] fun acc => do
    if ← accept "\x7d" then return .inr acc.reverse
    else if ← accept ";" then return .inl acc
    else
      let member ← classMember g
      return .inl (member.toList ++ acc)
  return (← spanFrom start, methods)

/-- The name of a class, if it has one. -/
def className : Parse (Option Name) := do
  match ← peek false with
  | .word text =>
      if text == "extends" then return none
      else return some (← anyWord)
  | _ => return none

/-! ### Primary expressions -/

/-- An arrow function after its arrow. -/
def arrowTail (g : Nested) (allowIn : Bool) (start : Nat) : Parse Expr := do
  if ← atPunctuator "\x7b" then block g
  else
    let _ ← g.assign allowIn
  return .arrow (← spanFrom start)

/-- A function expression after the word `function`. -/
def functionExpression (g : Nested) (start : Nat) : Parse Expr := do
  let kind := if ← accept "*" then "generator_function" else "function_expression"
  let name ← if ← atPunctuator "(" then pure none else some <$> anyWord
  functionTail g
  return .function kind (← spanFrom start) name

/-- What stands in a parenthesis after its opening: the expression, if it can be one. -/
def parenthesisTail (g : Nested) : Parse (Option Expr) :=
  g.repeated (none, true) fun (inner, plain) => do
    if ← accept ")" then return .inr (if plain then inner else none)
    else if ← accept "..." then
      let _ ← g.assign true
      let _ ← accept ","
      return .inl (inner, false)
    else
      let e ← g.assign true
      let whole :=
        match inner with
        | none => e
        | some first => .leaf "sequence_expression" (spanOver first e)
      if ← atPunctuator ")" then return .inl (some whole, plain)
      expect ","
      return .inl (some whole, plain && !(← atPunctuator ")"))

/-- A parenthesis, or an arrow function that starts with one, after the opening. -/
def parenthesis (g : Nested) (allowIn : Bool) (start : Nat) : Parse Expr := do
  let inner ← parenthesisTail g
  let span ← spanFrom start
  if ← accept "=>" then arrowTail g allowIn start
  else
    match inner with
    | some e => return .paren span e
    | none => failure

/-- An expression that starts with the word `async`: a function, an arrow function, a call, or the
name itself. -/
def asyncExpression (g : Nested) (allowIn : Bool) (name : Name) : Parse Expr := do
  let start := name.span.start
  let plain := Expr.name "identifier" name
  if ← atStatementEnd false then return plain
  else
    match ← peek false with
    | .word "function" =>
        let _ ← take false
        functionExpression g start
    | .word _ =>
        let isArrow ← lookahead do
          let _ ← take false
          atPunctuator "=>"
        if isArrow then
          let _ ← take false
          expect "=>"
          arrowTail g allowIn start
        else return plain
    | .punctuator "(" =>
        let _ ← take false
        items g ")"
        if ← accept "=>" then arrowTail g allowIn start
        else return .leaf "call_expression" (← spanFrom start)
    | .punctuator "=>" =>
        let _ ← take false
        arrowTail g allowIn start
    | _ => return plain

/-- A primary expression that starts with a word, other than `new`. -/
def wordExpression (g : Nested) (allowIn : Bool) (heritage : Parse Unit) (name : Name) :
    Parse Expr := do
  let start := name.span.start
  match name.text with
  | "function" => functionExpression g start
  | "async" => asyncExpression g allowIn name
  | "class" =>
      let className ← className
      let (bodySpan, methods) ← classTail g heritage
      return .classDefinition (← spanFrom start) className bodySpan methods
  | "import" =>
      if ← accept "(" then
        items g ")"
        return .leaf "call_expression" (← spanFrom start)
      else
        expect "."
        let _ ← anyWord
        return .leaf "meta_property" (← spanFrom start)
  | "true" => return .literal "true" name.span (.boolean true)
  | "false" => return .literal "false" name.span (.boolean false)
  | "null" => return .literal "null" name.span .null
  | "this" => return .leaf "this" name.span
  | "super" => return .leaf "super" name.span
  | "undefined" =>
      if ← accept "=>" then arrowTail g allowIn start else return .leaf "undefined" name.span
  | _ => if ← accept "=>" then arrowTail g allowIn start else return .name "identifier" name

/-- A primary expression other than one that starts with `new`. -/
def primary (g : Nested) (allowIn : Bool) (heritage : Parse Unit) : Parse Expr := do
  let before := (← get).skipTrivia
  match ← take true with
  | (.word text, span) => wordExpression g allowIn heritage ⟨text, span⟩
  | (.privateName text, span) => return .name "private_property_identifier" ⟨text, span⟩
  | (.string source, span) => return .literal "string" span (StringText.value source)
  | (.number source, span) => return .literal "number" span (numberLiteral source)
  | (.regex source, span) => return .literal "regex" span (.raw source)
  | (.punctuator text, span) =>
      match text with
      | "(" => parenthesis g allowIn span.start
      | "[" =>
          items g "]"
          return .leaf "array" (← spanFrom span.start)
      | "\x7b" =>
          let properties ← objectTail g
          return .object (← spanFrom span.start) properties
      | "\x60" =>
          template g
          return .literal "template_string" (← spanFrom span.start)
            (.raw (before.textUntil (← get)))
      | "@" =>
          decoratorTail g
          decorators g
          expectWord "class"
          let className ← className
          let (bodySpan, methods) ← classTail g heritage
          return .classDefinition (← spanFrom span.start) className bodySpan methods
      | _ =>
          if text = "<" then
            set before
            let kind ← elementKind g
            return .leaf kind (← spanFrom span.start)
          else failure
  | (.finish, _) => failure

/-! ### Members, calls and operators -/

/-- Members of an expression, without calls. -/
def members (g : Nested) (base : Expr) : Parse Expr :=
  g.repeated base fun base => do
    let start := base.span.start
    if ← accept "." then
      let property ← memberName
      return .inl (.member (← spanFrom start) base property)
    else if ← accept "[" then
      let index ← expression g true
      expect "]"
      return .inl (.subscript (← spanFrom start) base index)
    else return .inr base

/-- Members and calls of an expression. -/
def chain (g : Nested) (base : Expr) : Parse Expr :=
  g.repeated base fun base => do
    let start := base.span.start
    let call : Parse (Expr ⊕ Expr) := do
      items g ")"
      return .inl (.leaf "call_expression" (← spanFrom start))
    let subscript : Parse (Expr ⊕ Expr) := do
      let index ← expression g true
      expect "]"
      return .inl (.subscript (← spanFrom start) base index)
    let member : Parse (Expr ⊕ Expr) := do
      let property ← memberName
      return .inl (.member (← spanFrom start) base property)
    if ← accept "." then member
    else if ← accept "?." then
      if ← accept "(" then call else if ← accept "[" then subscript else member
    else if ← accept "[" then subscript
    else if ← accept "(" then call
    else if ← accept "\x60" then
      template g
      return .inl (.leaf "call_expression" (← spanFrom start))
    else return .inr base

/-- The words `new` in front of a constructor; answers how many there are. -/
def countNew (g : Nested) : Parse Nat :=
  g.repeated 0 fun n => do
    if ← acceptWord "new" then return .inl (n + 1) else return .inr n

/-- A primary expression with the words `new` in front of it. -/
def construction (g : Nested) (allowIn : Bool) (heritage : Parse Unit) : Parse Expr := do
  let start ← startRow
  let count ← countNew g
  if count = 0 then primary g allowIn heritage
  else if ← accept "." then
    let _ ← anyWord
    return .leaf "meta_property" (← spanFrom start)
  else
    let base ← primary g allowIn heritage
    g.repeated (count, base) fun (count, base) => do
      match count with
      | 0 => return .inr base
      | count + 1 =>
          let _ ← members g base
          if ← accept "(" then items g ")"
          return .inl (count, .leaf "new_expression" (← spanFrom start))

/-- A superclass: a primary expression with its members and calls.  A superclass inside it starts
over with the assignment rule. -/
def heritage (g : Nested) : Parse Unit := do
  let nested : Parse Unit := do
    let _ ← g.assign true
  let base ← construction g true nested
  let _ ← chain g base

/-- An expression with its members, calls and a trailing update. -/
def updated (g : Nested) (allowIn : Bool) : Parse Expr := do
  let base ← construction g allowIn (heritage g)
  let e ← chain g base
  let isUpdate := (← atPunctuator "++") || (← atPunctuator "--")
  if isUpdate && (← onSameRow) then
    let _ ← take false
    return .leaf "update_expression" (← spanFrom base.span.start)
  else return e

/-- The kind of an expression that starts with the given operator. -/
def unaryKind? : Token → Option String
  | .punctuator text =>
      if ["!", "~", "+", "-"].contains text then some "unary_expression"
      else if ["++", "--"].contains text then some "update_expression"
      else none
  | .word text =>
      if ["typeof", "void", "delete"].contains text then some "unary_expression"
      else if text = "await" then some "await_expression"
      else none
  | _ => none

/-- Does an operand come next?  Otherwise the word before it was a name. -/
def atOperand : Parse Bool := do
  match ← peek true with
  | .punctuator text =>
      return ["(", "[", "\x7b", "\x60", "+", "-", "!", "~", "++", "--", "<", "@"].contains text
  | .word text => return text ∉ ["in", "of", "instanceof"]
  | .finish => return false
  | _ => return true

/-- The kind of the operator that comes next in front of an operand, if there is one. -/
def nextUnary? : Parse (Option String) := do
  match unaryKind? (← peek true) with
  | some "await_expression" =>
      let isOperator ← lookahead do
        let _ ← take true
        if ← atStatementEnd false then return false else atOperand
      return if isOperator then some "await_expression" else none
  | kind => return kind

/-- An expression with the operators in front of it; the first one gives the kind. -/
def unary (g : Nested) (allowIn : Bool) : Parse Expr := do
  let start ← startRow
  let kind ← g.repeated (none : Option String) fun kind => do
    match ← nextUnary? with
    | some next =>
        let _ ← take true
        return .inl (some (kind.getD next))
    | none => return .inr kind
  let e ← updated g allowIn
  match kind with
  | some kind => return .leaf kind (← spanFrom start)
  | none => return e

def binaryOperators : List String :=
  ["*", "/", "%", "+", "-", "**", "<<", ">>", ">>>", "<", ">", "<=", ">=", "==", "!=", "===", "!==",
    "&", "^", "|", "&&", "||", "??"]

def isBinary (allowIn : Bool) : Token → Bool
  | .punctuator text => binaryOperators.contains text
  | .word text => text == "instanceof" || (allowIn && text == "in")
  | _ => false

/-- Expressions joined by binary operators. -/
def binary (g : Nested) (allowIn : Bool) : Parse Expr := do
  let first ← unary g allowIn
  g.repeated first fun e => do
    if isBinary allowIn (← peek false) then
      let _ ← take false
      let next ← unary g allowIn
      return .inl (.leaf "binary_expression" (spanOver first next))
    else return .inr e

/-- A condition with its two alternatives. -/
def conditional (g : Nested) (allowIn : Bool) : Parse Expr := do
  let test ← binary g allowIn
  if ← accept "?" then
    let _ ← g.assign true
    expect ":"
    let last ← g.assign allowIn
    return .leaf "ternary_expression" (spanOver test last)
  else return test

/-! ### Assignments -/

def compoundAssignments : List String :=
  ["+=", "-=", "*=", "/=", "%=", "**=", "<<=", ">>=", ">>>=", "&=", "^=", "|=", "&&=", "||=", "??="]

/-- A `yield` after its word. -/
def yieldTail (g : Nested) (allowIn : Bool) (start : Nat) : Parse Expr := do
  let delegates ← accept "*"
  let ended := !delegates && ((← atStatementEnd false) || (← endsOperand))
  if !ended then
    let _ ← g.assign allowIn
  return .leaf "yield_expression" (← spanFrom start)
where
  /-- Does a token come next that no operand starts with? -/
  endsOperand : Parse Bool := do
    match ← peek true with
    | .punctuator text => return [")", "]", "\x7d", ",", ";", ":"].contains text
    | .word text => return text == "in" || text == "of"
    | .finish => return true
    | _ => return false

/-- An expression without a comma. -/
def assignment (g : Nested) (allowIn : Bool) : Parse Expr := do
  let start ← startRow
  if ← acceptWord "yield" then yieldTail g allowIn start
  else
    let target ← conditional g allowIn
    match ← peek false with
    | .punctuator "=" =>
        let _ ← take false
        let value ← g.assign allowIn
        return .assignment (spanOver target value) target.asPattern value
    | .punctuator text =>
        if compoundAssignments.contains text then
          let _ ← take false
          let value ← g.assign allowIn
          return .leaf "augmented_assignment_expression" (spanOver target value)
        else return target
    | _ => return target

end ExportSurface.JavaScript

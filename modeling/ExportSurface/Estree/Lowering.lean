/-
Lowering a decoded syntax tree in the ESTree form.

Such a tree is a JSON object with a `type` in every node.  Types outside the grammar become
unsupported nodes, and a supported node that lacks a required part makes the whole tree malformed.
Parts are lowered before the nodes that hold them, from left to right, so the arena is in
post-order.  Nodes below the nesting limit become unsupported nodes of their own type.

Main definitions:

* `Estree.Malformed` — why a tree is refused;
* `Estree.lowerWith`, `Estree.lowerProgramWith` — one node, and a program, given the lowering of
  their parts;
* `Estree.lowerNode` — a node, followed for a number of levels;
* `Estree.lower` — a program.
-/

import ExportSurface.Ast.Builder
import ExportSurface.Json.Value

set_option autoImplicit false

namespace ExportSurface.Estree

/-- Why a tree is refused. -/
inductive Malformed where
  /-- A node has no type. -/
  | untyped
  /-- A node of the given type lacks a part. -/
  | missing (kind part : String)
  /-- Variables are declared with an unknown keyword. -/
  | unknownKeyword (word : String)
  /-- The tree is not a program. -/
  | notProgram (kind : String)
  deriving DecidableEq

/-- The wording of a refusal. -/
def Malformed.message : Malformed → String
  | .untyped => "node without a `type`"
  | .missing kind part => kind ++ " is missing `" ++ part ++ "`"
  | .unknownKeyword word => "unknown declaration kind " ++ word
  | .notProgram kind => "expected Program, found " ++ kind

/-! ### Parts of a node -/

def kindOf (v : Json) : Except Malformed String :=
  match (v.field? "type").bind Json.string? with
  | some kind => .ok kind
  | none => .error .untyped

def missing (v : Json) (part : String) : Malformed :=
  .missing (((v.field? "type").bind Json.string?).getD "node") part

def stringPart (v : Json) (part : String) : Except Malformed String :=
  match (v.field? part).bind Json.string? with
  | some s => .ok s
  | none => .error (missing v part)

def arrayPart (v : Json) (part : String) : Except Malformed (List Json) :=
  match (v.field? part).bind Json.array? with
  | some items => .ok items
  | none => .error (missing v part)

def flag (v : Json) (part : String) : Bool := ((v.field? part).bind Json.bool?).getD false

/-- A line of the location of a node, kept to 32 bits; zero when it is not given. -/
def lineOf (v : Json) (edge : String) : Nat :=
  ((v.path? ["loc", edge, "line"]).bind Json.natural?).getD 0 % Nat.pow 2 32

def spanOf (v : Json) : Span := ⟨lineOf v "start", lineOf v "end"⟩

/-- The value of a literal.  Regular expressions and big integers are kept as source text. -/
def literalOf (v : Json) : Literal :=
  if (v.field? "regex").isSome || (v.field? "bigint").isSome then
    .raw (((v.field? "raw").bind Json.string?).getD "")
  else
    match v.field? "value" with
    | some (.string s) => .string s
    | some (.number n) => .number n.toBinary64
    | some (.bool b) => .boolean b
    | _ => .null

/-- A compound assignment such as `+=` does not bind its target. -/
def isCompound (v : Json) : Bool := ((v.field? "operator").bind Json.string?).any (· != "=")

/-! ### One level -/

/-- A lowering of single nodes: it answers the position of the node and the nodes so far. -/
abbrev Lower := Json → AstBuilder → Except Malformed (NodeId × AstBuilder)

/-- Lower a required part. -/
def required (recur : Lower) (v : Json) (part : String) (b : AstBuilder) :
    Except Malformed (NodeId × AstBuilder) :=
  match v.present? part with
  | some child => recur child b
  | none => .error (missing v part)

/-- Lower a part that may be absent or null. -/
def optional (recur : Lower) (v : Json) (part : String) (b : AstBuilder) :
    Except Malformed (Option NodeId × AstBuilder) :=
  match v.present? part with
  | some child => do
      let (id, b) ← recur child b
      return (some id, b)
  | none => .ok (none, b)

/-- Lower the items of a list from left to right. -/
def each {α : Type} (step : Json → AstBuilder → Except Malformed (α × AstBuilder)) :
    List Json → AstBuilder → Except Malformed (List α × AstBuilder)
  | [], b => .ok ([], b)
  | v :: rest, b => do
      let (x, b) ← step v b
      let (xs, b) ← each step rest b
      return (x :: xs, b)

def declarator (recur : Lower) (v : Json) (b : AstBuilder) :
    Except Malformed (Declarator × AstBuilder) := do
  let (target, b) ← required recur v "id" b
  let (init, b) ← optional recur v "init" b
  return (⟨target, init⟩, b)

def entry (recur : Lower) (v : Json) (b : AstBuilder) : Except Malformed (Entry × AstBuilder) := do
  let (key, b) ← required recur v "key" b
  let (value, b) ← required recur v "value" b
  return (⟨key, value, flag v "computed"⟩, b)

/-- Lower the entries of the given type and pass over those of any other. -/
def entries (recur : Lower) (kind : String) :
    List Json → AstBuilder → Except Malformed (List Entry × AstBuilder)
  | [], b => .ok ([], b)
  | v :: rest, b => do
      if (← kindOf v) = kind then
        let (x, b) ← entry recur v b
        let (xs, b) ← entries recur kind rest b
        return (x :: xs, b)
      else entries recur kind rest b

/-- Lower one node, given the lowering of its parts. -/
def lowerWith (recur : Lower) (v : Json) (b : AstBuilder) :
    Except Malformed (NodeId × AstBuilder) := do
  let span := spanOf v
  match ← kindOf v with
  | "ExpressionStatement" =>
      let (expression, b) ← required recur v "expression" b
      return b.pushSpanned (.expressionStatement expression) span
  | "VariableDeclaration" =>
      let word ← stringPart v "kind"
      match DeclarationKind.ofKeyword? word with
      | none => throw (.unknownKeyword word)
      | some kind =>
          let (declarators, b) ← each (declarator recur) (← arrayPart v "declarations") b
          return b.pushSpanned (.variableDeclaration kind declarators) span
  | "AssignmentExpression" =>
      if isCompound v then return b.pushSpanned (.other "AssignmentExpression") span
      else
        let (target, b) ← required recur v "left" b
        let (value, b) ← required recur v "right" b
        return b.pushSpanned (.assignment target value) span
  | "Identifier" =>
      let name ← stringPart v "name"
      return b.pushSpanned (.identifier name) span
  | "MemberExpression" =>
      let (base, b) ← required recur v "object" b
      let (property, b) ← required recur v "property" b
      return b.pushSpanned (.member base property (flag v "computed")) span
  | "FunctionDeclaration" =>
      let (id, b) ← optional recur v "id" b
      return b.pushSpanned (.functionDeclaration id) span
  | "FunctionExpression" =>
      let (id, b) ← optional recur v "id" b
      return b.pushSpanned (.functionExpression id) span
  | "ArrowFunctionExpression" => return b.pushSpanned .arrowFunction span
  | "ClassDeclaration" | "ClassExpression" =>
      let (id, b) ← optional recur v "id" b
      let (body, b) ← required recur v "body" b
      return b.pushSpanned (.classDeclaration id body) span
  | "ClassBody" =>
      let (methods, b) ← entries recur "MethodDefinition" (← arrayPart v "body") b
      return b.pushSpanned (.classBody methods) span
  | "ObjectExpression" =>
      let (properties, b) ← entries recur "Property" (← arrayPart v "properties") b
      return b.pushSpanned (.object properties) span
  | "Literal" => return b.pushSpanned (.literal (literalOf v)) span
  | "ExportDefaultDeclaration" =>
      let (declaration, b) ← required recur v "declaration" b
      return b.pushSpanned (.exportDefault declaration) span
  | "ExportNamedDeclaration" =>
      let (declaration, b) ← optional recur v "declaration" b
      if (v.present? "source").isSome then
        return b.pushSpanned (.exportNamed declaration []) span
      else
        let (specifiers, b) ← each recur (← arrayPart v "specifiers") b
        return b.pushSpanned (.exportNamed declaration specifiers) span
  | "ExportSpecifier" =>
      let (source, b) ← required recur v "local" b
      return b.pushSpanned (.exportSpecifier source) span
  | "ParenthesizedExpression" => required recur v "expression" b
  | kind => return b.pushSpanned (.other kind) span

/-! ### Lowering to a depth -/

/-- Lower a node, followed for the given number of levels; below them it is unsupported. -/
def lowerNode : Nat → Lower
  | 0 => fun v b => do
      let kind ← kindOf v
      return b.pushSpanned (.other kind) (spanOf v)
  | levels + 1 => lowerWith (lowerNode levels)

/-- Lower a program, given the lowering of its statements. -/
def lowerProgramWith (recur : Lower) (v : Json) : Except Malformed Ast := do
  match ← kindOf v with
  | "Program" =>
      let (body, b) ← each recur (← arrayPart v "body") {}
      return (b.atLine (lineOf v "start")).program body
  | kind => throw (.notProgram kind)

/-- Lower a program, its statements followed for the given number of levels. -/
def lowerProgram (levels : Nat) : Json → Except Malformed Ast := lowerProgramWith (lowerNode levels)

/-- Lower a program to the nesting limit. -/
def lower (v : Json) : Except Malformed Ast := lowerProgram maxNesting v

end ExportSurface.Estree

/-
From JavaScript source to the syntax tree of the analysis.

Parts are pushed before the nodes that refer to them, in the order of the source.  An expression
below `maxNesting` others becomes a node that only keeps its kind; names of members, functions,
classes and variables are always kept.

Main definitions:

* `lowerExpr`, `lowerStmt` — push an expression and a statement;
* `parseSource` — the syntax tree of a source text.
-/

import ExportSurface.Ast.Builder
import ExportSurface.JavaScript.Grammar.Statement

set_option autoImplicit false

namespace ExportSurface.JavaScript

/-- Push the identifier for a name. -/
def lowerName (b : AstBuilder) (name : Name) : NodeId × AstBuilder :=
  b.pushSpanned (.identifier name.text) name.span

def lowerName? (b : AstBuilder) : Option Name → Option NodeId × AstBuilder
  | some name =>
      let (id, b) := lowerName b name
      (some id, b)
  | none => (none, b)

section Parts

variable (lower : AstBuilder → Expr → NodeId × AstBuilder)

/-- Push a method: its key, and a function with the lines of the whole method. -/
def lowerMethod (b : AstBuilder) : Method → Entry × AstBuilder
  | .mk key computed span =>
      let (key, b) := lower b key
      let (value, b) := b.pushSpanned (.functionExpression none) span
      (⟨key, value, computed⟩, b)

/-- Push an entry of an object literal. -/
def lowerProperty (b : AstBuilder) : Property → Entry × AstBuilder
  | .pair key computed value =>
      let (key, b) := lower b key
      let (value, b) := lower b value
      (⟨key, value, computed⟩, b)
  | .shorthand name =>
      let (key, b) := lowerName b name
      let (value, b) := lowerName b name
      (⟨key, value, false⟩, b)
  | .method m => lowerMethod lower b m

/-- Push a class: its name, its methods, its body and the class itself. -/
def lowerClass (b : AstBuilder) (span : Span) (name : Option Name) (bodySpan : Span)
    (methods : List Method) : NodeId × AstBuilder :=
  let (id, b) := lowerName? b name
  let (methods, b) := AstBuilder.pushEach (lowerMethod lower) b methods
  let (body, b) := b.pushSpanned (.classBody methods) bodySpan
  b.pushSpanned (.classDeclaration id body) span

/-- Push an expression, given how to push its parts. -/
def lowerExprWith (b : AstBuilder) : Expr → NodeId × AstBuilder
  | .leaf kind span => b.pushSpanned (.other kind) span
  | .name _ n => lowerName b n
  | .literal _ span value => b.pushSpanned (.literal value) span
  | .assignment span target value =>
      let (target, b) := lower b target
      let (value, b) := lower b value
      b.pushSpanned (.assignment target value) span
  | .member span base property =>
      let (base, b) := lower b base
      let (property, b) := lowerName b property
      b.pushSpanned (.member base property false) span
  | .subscript span base index =>
      let (base, b) := lower b base
      let (index, b) := lower b index
      b.pushSpanned (.member base index true) span
  | .function _ span name =>
      let (id, b) := lowerName? b name
      b.pushSpanned (.functionExpression id) span
  | .arrow span => b.pushSpanned .arrowFunction span
  | .classDefinition span name bodySpan methods => lowerClass lower b span name bodySpan methods
  | .object span properties =>
      let (properties, b) := AstBuilder.pushEach (lowerProperty lower) b properties
      b.pushSpanned (.object properties) span
  | .paren _ inner => lower b inner

end Parts

/-- Push an expression with the given number of levels left. -/
def lowerExpr : Nat → AstBuilder → Expr → NodeId × AstBuilder
  | 0, b, e => b.pushSpanned (.other e.kind) e.span
  | levels + 1, b, e => lowerExprWith (lowerExpr levels) b e

/-- Push an expression that is part of a statement. -/
def lowerValue (b : AstBuilder) (e : Expr) : NodeId × AstBuilder := lowerExpr maxNesting b e

/-- Push a declared variable: its name, or the kind of its pattern, and its value. -/
def lowerDeclarator (b : AstBuilder) (d : VariableDeclarator) : Declarator × AstBuilder :=
  let (target, b) :=
    match d.target with
    | .name _ n => lowerName b n
    | pattern => b.pushSpanned (.other pattern.kind) pattern.span
  match d.init with
  | some init =>
      let (init, b) := lowerValue b init
      (⟨target, some init⟩, b)
  | none => (⟨target, none⟩, b)

/-- Push a statement. -/
def lowerStmt (b : AstBuilder) : Stmt → NodeId × AstBuilder
  | .leaf kind span => b.pushSpanned (.other kind) span
  | .expression span value =>
      let (value, b) := lowerValue b value
      b.pushSpanned (.expressionStatement value) span
  | .variableDeclaration span kind declarators =>
      let (declarators, b) := AstBuilder.pushEach lowerDeclarator b declarators
      b.pushSpanned (.variableDeclaration kind declarators) span
  | .function span name =>
      let (id, b) := lowerName b name
      b.pushSpanned (.functionDeclaration (some id)) span
  | .classDefinition span name bodySpan methods =>
      lowerClass lowerValue b span name bodySpan methods
  | .exportDeclaration span declaration =>
      let (declaration, b) := lowerStmt b declaration
      b.pushSpanned (.exportNamed (some declaration) []) span
  | .exportDefaultDeclaration span declaration =>
      let (declaration, b) := lowerStmt b declaration
      b.pushSpanned (.exportDefault declaration) span
  | .exportDefaultValue span value =>
      let (value, b) := lowerValue b value
      b.pushSpanned (.exportDefault value) span
  | .exportNames span names =>
      let (specifiers, b) := AstBuilder.pushEach (fun b (name, span) =>
        let (id, b) := lowerName b name
        b.pushSpanned (.exportSpecifier id) span) b names
      b.pushSpanned (.exportNamed none specifiers) span

/-- The syntax tree of a source text. -/
def parseSource (source : String) : Ast :=
  let (body, b) := AstBuilder.pushEach lowerStmt {} (program source)
  (b.atLine 1).program body

end ExportSurface.JavaScript

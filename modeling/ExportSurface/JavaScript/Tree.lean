/-
The shape of JavaScript source.

A tree keeps what lowering can use: names, literals, member accesses, assignments, functions, the
methods of classes and the entries of object literals, each with its lines.  All other constructs
are leaves under their kind.

Main definitions:

* `Expr` — expressions, with `Expr.kind` and `Expr.span`;
* `Stmt` — statements.
-/

import ExportSurface.Ast.Node

set_option autoImplicit false

namespace ExportSurface.JavaScript

/-- A name in the source. -/
structure Name where
  text : String
  span : Span

mutual

/-- An expression. -/
inductive Expr where
  /-- A construct that is not looked into. -/
  | leaf (kind : String) (span : Span)
  | name (kind : String) (name : Name)
  | literal (kind : String) (span : Span) (value : Literal)
  | assignment (span : Span) (target value : Expr)
  | member (span : Span) (base : Expr) (property : Name)
  | subscript (span : Span) (base index : Expr)
  | function (kind : String) (span : Span) (name : Option Name)
  | arrow (span : Span)
  | classDefinition (span : Span) (name : Option Name) (bodySpan : Span) (methods : List Method)
  | object (span : Span) (properties : List Property)
  | paren (span : Span) (inner : Expr)

/-- A method of a class body or an object literal. -/
inductive Method where
  | mk (key : Expr) (computed : Bool) (span : Span)

/-- An entry of an object literal; entries of other kinds are not kept. -/
inductive Property where
  | pair (key : Expr) (computed : Bool) (value : Expr)
  | shorthand (name : Name)
  | method (method : Method)

end

namespace Expr

/-- The kind of an expression. -/
def kind : Expr → String
  | .leaf kind _ => kind
  | .name kind _ => kind
  | .literal kind _ _ => kind
  | .assignment _ _ _ => "assignment_expression"
  | .member _ _ _ => "member_expression"
  | .subscript _ _ _ => "subscript_expression"
  | .function kind _ _ => kind
  | .arrow _ => "arrow_function"
  | .classDefinition _ _ _ _ => "class"
  | .object _ _ => "object"
  | .paren _ _ => "parenthesized_expression"

/-- The lines of an expression. -/
def span : Expr → Span
  | .leaf _ span => span
  | .name _ n => n.span
  | .literal _ span _ => span
  | .assignment span _ _ => span
  | .member span _ _ => span
  | .subscript span _ _ => span
  | .function _ span _ => span
  | .arrow span => span
  | .classDefinition span _ _ _ => span
  | .object span _ => span
  | .paren span _ => span

/-- An expression read as the target of an assignment: literals of objects and arrays are
patterns there. -/
def asPattern (e : Expr) : Expr :=
  match e with
  | .object span _ => .leaf "object_pattern" span
  | .leaf kind span => if kind = "array" then .leaf "array_pattern" span else e
  | _ => e

end Expr

/-- A declared variable: a name or a pattern, with the initial value. -/
structure VariableDeclarator where
  target : Expr
  init : Option Expr

/-- A statement. -/
inductive Stmt where
  /-- A construct that is not looked into. -/
  | leaf (kind : String) (span : Span)
  | expression (span : Span) (value : Expr)
  | variableDeclaration (span : Span) (kind : DeclarationKind)
    (declarators : List VariableDeclarator)
  | function (span : Span) (name : Name)
  | classDefinition (span : Span) (name : Option Name) (bodySpan : Span) (methods : List Method)
  | exportDeclaration (span : Span) (declaration : Stmt)
  | exportDefaultDeclaration (span : Span) (declaration : Stmt)
  | exportDefaultValue (span : Span) (value : Expr)
  /-- The names of an export clause, each with the lines of its specifier. -/
  | exportNames (span : Span) (names : List (Name × Span))

/-- The lines of a statement. -/
def Stmt.span : Stmt → Span
  | .leaf _ span => span
  | .expression span _ => span
  | .variableDeclaration span _ _ => span
  | .function span _ => span
  | .classDefinition span _ _ _ => span
  | .exportDeclaration span _ => span
  | .exportDefaultDeclaration span _ => span
  | .exportDefaultValue span _ => span
  | .exportNames span _ => span

end ExportSurface.JavaScript

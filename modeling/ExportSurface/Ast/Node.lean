/-
Syntax trees as arenas.

A front end lowers the source of a module to an `Ast`: a list of nodes, in which a node refers to
its parts by their positions.  The position of a node is its identity; the symbol graph records
it, and the export search compares it, nothing else.  The grammar is closed: what a front end
cannot express in it becomes `Node.other` under the front end's own name for the construct.

Main definitions:

* `Node`, `Ast` — the grammar, and an arena of nodes with its program;
* `Node.name` — the name under which a node kind is reported;
* `Node.references` — the positions a node refers to;
* `Ast.ChildrenFirst` — every node refers to earlier nodes only;
* `Ast.staticKey?` — the name that a key contributes without being evaluated.
-/

import ExportSurface.Ast.Literal

set_option autoImplicit false

namespace ExportSurface

/-- The position of a node in its arena. -/
abbrev NodeId := Nat

/-- How deep the front ends lower expressions and the resolver follows them. -/
def maxNesting : Nat := 256

/-- The source lines that a node covers, counted from one; zero when unknown. -/
structure Span where
  start : Nat
  stop : Nat
  deriving DecidableEq

/-- The three keywords that declare variables. -/
inductive DeclarationKind where
  | var
  | let
  | const
  deriving DecidableEq

namespace DeclarationKind

def keyword : DeclarationKind → String
  | .var => "var"
  | .let => "let"
  | .const => "const"

def ofKeyword? (word : String) : Option DeclarationKind :=
  if word = "var" then some .var
  else if word = "let" then some .let
  else if word = "const" then some .const
  else none

/-- A `var` also becomes a property of the global object. -/
def isGlobal : DeclarationKind → Bool
  | .var => true
  | .let => false
  | .const => false

end DeclarationKind

/-- A declared variable with its initialiser. -/
structure Declarator where
  target : NodeId
  init : Option NodeId
  deriving DecidableEq

/-- A keyed entry: a property of an object literal or a method of a class body. -/
structure Entry where
  key : NodeId
  value : NodeId
  computed : Bool
  deriving DecidableEq

/-- The node kinds of the supported grammar. -/
inductive Node where
  | program (body : List NodeId)
  | expressionStatement (expression : NodeId)
  | variableDeclaration (kind : DeclarationKind) (declarators : List Declarator)
  | assignment (target value : NodeId)
  | identifier (name : String)
  | member (base property : NodeId) (computed : Bool)
  | functionDeclaration (id : Option NodeId)
  | functionExpression (id : Option NodeId)
  | arrowFunction
  | classDeclaration (id : Option NodeId) (body : NodeId)
  | classBody (methods : List Entry)
  | object (properties : List Entry)
  | literal (value : Literal)
  | exportDefault (declaration : NodeId)
  | exportNamed (declaration : Option NodeId) (specifiers : List NodeId)
  | exportSpecifier (source : NodeId)
  | other (kind : String)
  deriving DecidableEq

namespace Node

/-- The name of a node kind in reports. -/
def name : Node → String
  | .program _ => "Program"
  | .expressionStatement _ => "ExpressionStatement"
  | .variableDeclaration _ _ => "VariableDeclaration"
  | .assignment _ _ => "AssignmentExpression"
  | .identifier _ => "Identifier"
  | .member _ _ _ => "MemberExpression"
  | .functionDeclaration _ => "FunctionDeclaration"
  | .functionExpression _ => "FunctionExpression"
  | .arrowFunction => "ArrowFunctionExpression"
  | .classDeclaration _ _ => "ClassDeclaration"
  | .classBody _ => "ClassBody"
  | .object _ => "ObjectExpression"
  | .literal _ => "Literal"
  | .exportDefault _ => "ExportDefaultDeclaration"
  | .exportNamed _ _ => "ExportNamedDeclaration"
  | .exportSpecifier _ => "ExportSpecifier"
  | .other kind => kind

/-- The nodes that a node refers to, in the order of its parts. -/
def references : Node → List NodeId
  | .program body => body
  | .expressionStatement expression => [expression]
  | .variableDeclaration _ declarators => declarators.flatMap fun d => d.target :: d.init.toList
  | .assignment target value => [target, value]
  | .identifier _ => []
  | .member base property _ => [base, property]
  | .functionDeclaration id => id.toList
  | .functionExpression id => id.toList
  | .arrowFunction => []
  | .classDeclaration id body => id.toList ++ [body]
  | .classBody methods => methods.flatMap fun m => [m.key, m.value]
  | .object properties => properties.flatMap fun p => [p.key, p.value]
  | .literal _ => []
  | .exportDefault declaration => [declaration]
  | .exportNamed declaration specifiers => declaration.toList ++ specifiers
  | .exportSpecifier source => [source]
  | .other _ => []

/-- A function expression or an arrow function. -/
def isFunctionValue : Node → Bool
  | .functionExpression _ | .arrowFunction => true
  | _ => false

end Node

/-- A node together with the lines it covers. -/
structure SpannedNode where
  node : Node
  span : Span
  deriving DecidableEq

/-- The syntax tree of one module. -/
structure Ast where
  nodes : Array SpannedNode
  program : NodeId
  deriving DecidableEq

namespace Ast

/-- The node at a position; past the end of the arena there are only unnamed unsupported nodes. -/
def node (ast : Ast) (id : NodeId) : Node :=
  match ast.nodes[id]? with
  | some n => n.node
  | none => .other ""

def span (ast : Ast) (id : NodeId) : Span :=
  match ast.nodes[id]? with
  | some n => n.span
  | none => ⟨0, 0⟩

def size (ast : Ast) : Nat := ast.nodes.size

/-- The top-level statements. -/
def body (ast : Ast) : List NodeId :=
  match ast.node ast.program with
  | .program body => body
  | _ => []

def identifierName? (ast : Ast) (id : NodeId) : Option String :=
  match ast.node id with
  | .identifier name => some name
  | _ => none

/-- The name that a key contributes without being evaluated. -/
def staticKey? (ast : Ast) (key : NodeId) : Option String :=
  match ast.node key with
  | .identifier name => some name
  | .literal value => value.key?
  | _ => none

/-- The static name of an entry; a computed key has none. -/
def entryKey? (ast : Ast) (entry : Entry) : Option String :=
  if entry.computed then none else ast.staticKey? entry.key

/-- Every node refers to earlier nodes only. -/
def ChildrenFirst (ast : Ast) : Prop :=
  ∀ id < ast.size, ∀ r ∈ (ast.node id).references, r < id

end Ast

end ExportSurface

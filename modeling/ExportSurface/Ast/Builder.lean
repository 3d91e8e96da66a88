/-
Building a syntax tree node by node.

A builder holds the nodes pushed so far.  Parts are pushed before the nodes that refer to them, and
`AstBuilder.program` closes the tree.  Each operation returns the position of the node it made and
the builder that holds it.  Positions are natural numbers without a bound: an arena of more than
`2 ^ 32` nodes, whose positions do not fit a word of 32 bits, is outside the model.

Main definitions:

* `AstBuilder.push`, `AstBuilder.pushSpanned` — append one node;
* `AstBuilder.path` — the member chain of a dotted path;
* `AstBuilder.program` — close the tree.
-/

import ExportSurface.Ast.Node

set_option autoImplicit false

namespace ExportSurface

/-- The nodes pushed so far, and the line recorded for the next ones. -/
structure AstBuilder where
  nodes : Array SpannedNode := #[]
  line : Nat := 0

namespace AstBuilder

/-! ### Single nodes -/

/-- Append a node with the given span. -/
def pushSpanned (b : AstBuilder) (node : Node) (span : Span) : NodeId × AstBuilder :=
  (b.nodes.size, { b with nodes := b.nodes.push ⟨node, span⟩ })

/-- Append a node on the current line. -/
def push (b : AstBuilder) (node : Node) : NodeId × AstBuilder :=
  b.pushSpanned node ⟨b.line, b.line⟩

/-- Record the given line for the nodes that follow. -/
def atLine (b : AstBuilder) (line : Nat) : AstBuilder := { b with line }

def identifier (b : AstBuilder) (name : String) : NodeId × AstBuilder :=
  b.push (.identifier name)

def string (b : AstBuilder) (text : String) : NodeId × AstBuilder :=
  b.push (.literal (.string text))

def number (b : AstBuilder) (value : Binary64) : NodeId × AstBuilder :=
  b.push (.literal (.number value))

/-! ### Expressions -/

/-- The node `object.property`. -/
def member (b : AstBuilder) (object : NodeId) (property : String) : NodeId × AstBuilder :=
  let (name, b) := b.identifier property
  b.push (.member object name false)

/-- The node `object[property]`. -/
def computedMember (b : AstBuilder) (object property : NodeId) : NodeId × AstBuilder :=
  b.push (.member object property true)

/-- The dot-separated segments of a text; there is always a first one. -/
def segments (dotted : List Char) : List Char × List (List Char) :=
  match dotted with
  | [] => ([], [])
  | c :: rest =>
      let (first, others) := segments rest
      if c = '.' then ([], first :: others) else (c :: first, others)

/-- The member chain of a dotted path such as `module.exports.run`. -/
def path (b : AstBuilder) (dotted : String) : NodeId × AstBuilder :=
  let (first, others) := segments dotted.toList
  others.foldl (fun (node, b) segment => b.member node (String.ofList segment))
    (b.identifier (String.ofList first))

def assign (b : AstBuilder) (target value : NodeId) : NodeId × AstBuilder :=
  b.push (.assignment target value)

def functionExpression (b : AstBuilder) : NodeId × AstBuilder :=
  b.push (.functionExpression none)

def arrowFunction (b : AstBuilder) : NodeId × AstBuilder :=
  b.push .arrowFunction

/-- Run a building step for each item, from left to right. -/
def pushEach {α β : Type} (step : AstBuilder → α → β × AstBuilder) :
    AstBuilder → List α → List β × AstBuilder
  | b, [] => ([], b)
  | b, a :: rest =>
      let (x, b) := step b a
      let (xs, b) := pushEach step b rest
      (x :: xs, b)

/-- A plain `key: value` entry. -/
def property (b : AstBuilder) (key : String) (value : NodeId) : Entry × AstBuilder :=
  let (name, b) := b.identifier key
  (⟨name, value, false⟩, b)

/-- An object literal of finished entries. -/
def object (b : AstBuilder) (properties : List Entry) : NodeId × AstBuilder :=
  b.push (.object properties)

/-- A class body with one method for each name. -/
def classBody (b : AstBuilder) (names : List String) : NodeId × AstBuilder :=
  let (methods, b) := pushEach (fun b name =>
    let (key, b) := b.identifier name
    let (value, b) := b.functionExpression
    ((⟨key, value, false⟩ : Entry), b)) b names
  b.push (.classBody methods)

/-! ### Statements -/

def expressionStatement (b : AstBuilder) (expression : NodeId) : NodeId × AstBuilder :=
  b.push (.expressionStatement expression)

/-- The statement `target = value;`. -/
def assignStatement (b : AstBuilder) (target value : NodeId) : NodeId × AstBuilder :=
  let (assignment, b) := b.assign target value
  b.expressionStatement assignment

/-- An identifier for a name that may be missing. -/
def optionalIdentifier (b : AstBuilder) : Option String → Option NodeId × AstBuilder
  | some name =>
      let (id, b) := b.identifier name
      (some id, b)
  | none => (none, b)

def functionDeclaration (b : AstBuilder) (name : Option String) : NodeId × AstBuilder :=
  let (id, b) := b.optionalIdentifier name
  b.push (.functionDeclaration id)

def classDeclaration (b : AstBuilder) (name : Option String) (body : NodeId) :
    NodeId × AstBuilder :=
  let (id, b) := b.optionalIdentifier name
  b.push (.classDeclaration id body)

/-- A declaration of one variable. -/
def variableDeclaration (b : AstBuilder) (kind : DeclarationKind) (name : String)
    (init : Option NodeId) : NodeId × AstBuilder :=
  let (id, b) := b.identifier name
  b.push (.variableDeclaration kind [⟨id, init⟩])

def exportDefault (b : AstBuilder) (declaration : NodeId) : NodeId × AstBuilder :=
  b.push (.exportDefault declaration)

/-- An export of a declaration and of local names. -/
def exportNamed (b : AstBuilder) (declaration : Option NodeId) (names : List String) :
    NodeId × AstBuilder :=
  let (specifiers, b) := pushEach (fun b name =>
    let (id, b) := b.identifier name
    b.push (.exportSpecifier id)) b names
  b.push (.exportNamed declaration specifiers)

def other (b : AstBuilder) (kind : String) : NodeId × AstBuilder :=
  b.push (.other kind)

/-! ### Closing -/

/-- Close the tree with a program over the given statements. -/
def program (b : AstBuilder) (body : List NodeId) : Ast :=
  let (program, b) := b.push (.program body)
  { nodes := b.nodes, program }

end AstBuilder

end ExportSurface

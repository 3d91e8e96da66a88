/-
The declarations of a module that a user would ask about.

A candidate names the node whose identity the symbol graph records: the declaration of a function
or class, the function value of a method, and the initialiser of a variable.  An anonymous value
takes its name from the binding that receives it.

Main definitions:

* `Ast.inferredNames` — the names that bindings give to the values they receive;
* `Ast.candidates` — all candidates, ordered by line and then by position.
-/

import ExportSurface.Ast.MemberPath
import Std.Data.HashMap

set_option autoImplicit false

namespace ExportSurface

/-- What a candidate declares. -/
inductive CandidateKind where
  | function
  | classDefinition
  | method
  | object
  deriving DecidableEq

def CandidateKind.text : CandidateKind → String
  | .function => "function"
  | .classDefinition => "class"
  | .method => "method"
  | .object => "object"

/-- A node worth asking about, with the name and the line it is listed under. -/
structure Candidate where
  node : NodeId
  name : String
  kind : CandidateKind
  line : Nat
  deriving DecidableEq

namespace Candidate

/-- Candidates are listed by line, and on one line by the position of their node. -/
def le (a b : Candidate) : Bool :=
  a.line < b.line || (a.line == b.line && a.node ≤ b.node)

end Candidate

namespace Ast

/-! ### Names of anonymous values -/

/-- Names for the values of a module, by node. -/
abbrev Names := Std.HashMap NodeId String

/-- The names that one node gives to its parts: a declarator and an assignment name the value they
store, overriding any earlier name; a property only names a value that has no name yet. -/
def nameParts (ast : Ast) (names : Names) (node : Node) : Names :=
  match node with
  | .variableDeclaration _ declarators =>
      declarators.foldl (fun names d =>
        match d.init, ast.identifierName? d.target with
        | some init, some name => names.insert init name
        | _, _ => names) names
  | .assignment target value =>
      match ast.memberPath? target with
      | some path => names.insert value path
      | none => names
  | .object properties =>
      properties.foldl (fun names p =>
        match ast.entryKey? p with
        | some key => if names.contains p.value then names else names.insert p.value key
        | none => names) names
  | _ => names

/-- The names that the bindings of a module give to the values they receive. -/
def inferredNames (ast : Ast) : Names :=
  ast.nodes.foldl (fun names n => ast.nameParts names n.node) ∅

/-! ### Candidates -/

/-- The nodes that are the function values of methods. -/
def methodValues (ast : Ast) : List NodeId :=
  ast.nodes.toList.flatMap fun n =>
    match n.node with
    | .classBody methods => methods.map (·.value)
    | _ => []

/-- The candidate for one method of a class. -/
def methodCandidate (ast : Ast) (className : String) (method : Entry) : Candidate :=
  { node := method.value
    name := className ++ "." ++ (ast.entryKey? method).getD "<computed>"
    kind := .method
    line := (ast.span method.value).start }

/-- The candidates that one node contributes; a class lists its methods before itself. -/
def candidatesAt (ast : Ast) (names : Names) (methods : NodeId → Bool) (id : NodeId) :
    List Candidate :=
  let line := (ast.span id).start
  match ast.node id with
  | .functionDeclaration name =>
      [⟨id, (name.bind ast.identifierName?).getD "default", .function, line⟩]
  | .classDeclaration name body =>
      let className := ((name.bind ast.identifierName?).or names[id]?).getD "default"
      let listed :=
        match ast.node body with
        | .classBody entries => entries.map (ast.methodCandidate className)
        | _ => []
      listed ++ [⟨id, className, .classDefinition, line⟩]
  | .functionExpression _ | .arrowFunction =>
      if methods id then [] else [⟨id, names[id]?.getD "<anonymous>", .function, line⟩]
  | .object _ =>
      match names[id]? with
      | some name => [⟨id, name, .object, line⟩]
      | none => []
  | _ => []

/-- The candidates of a module, ordered by line and then by position. -/
def candidates (ast : Ast) : List Candidate :=
  let names := ast.inferredNames
  let methods := ast.methodValues
  ((List.range ast.size).flatMap (ast.candidatesAt names methods.contains)).mergeSort Candidate.le

end Ast

end ExportSurface

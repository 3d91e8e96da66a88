/-
Binding a module: two passes over its top-level statements.

The declaration pass gives every declared variable a placeholder, so that later references resolve
whatever the order of statements.  The assignment pass stores values and flags what is exported.
Bodies of functions and classes, blocks and control flow are not visited.

Main definitions:

* `Resolver.declare`, `Resolver.assign` — the two passes, from a given node on;
* `Resolver.bindModule` — both passes over a program.
-/

import ExportSurface.Binding.Resolver

set_option autoImplicit false

namespace ExportSurface.Resolver

/-- The global under which an anonymous default export is kept. -/
def defaultExport : String := "default"

/-! ### Declarations -/

/-- Give one declared variable a placeholder; a `var` is also set on the global object. -/
def declareVariable (r : Resolver) (kind : DeclarationKind) (b : Bindings) (d : Declarator) :
    Bindings :=
  let (s, b) := r.bind maxNesting d.target none (some SymbolGraph.root) b
  if kind.isGlobal then
    match s, b.graph.window?, r.ast.identifierName? d.target with
    | some s, some window, some name => b.setProp window name s
    | _, _, _ => b
  else b

/-- The declaration pass, through at most `fuel` enclosing statements. -/
def declareThrough (r : Resolver) : Nat → NodeId → Bindings → Bindings
  | 0, _, b => b
  | fuel + 1, node, b =>
      match r.ast.node node with
      | .program body => body.foldl (fun b statement => r.declareThrough fuel statement b) b
      | .expressionStatement expression => r.declareThrough fuel expression b
      | .variableDeclaration kind declarators => declarators.foldl (r.declareVariable kind) b
      | .exportNamed (some declaration) _ => r.declareThrough fuel declaration b
      | _ => b

/-- The declaration pass from a node on.  Statements come after their parts, so a node encloses
fewer statements than it has predecessors. -/
def declare (r : Resolver) (node : NodeId) (b : Bindings) : Bindings :=
  r.declareThrough (node + 1) node b

/-! ### Assignments and exports -/

/-- Store the initial values of variables; the symbols stored, in order. -/
def bindDeclarators (r : Resolver) : List Declarator → Bindings → List SymbolId × Bindings
  | [], b => ([], b)
  | d :: rest, b =>
      let (s, b) := r.bind maxNesting d.target d.init none b
      let (stored, b) := r.bindDeclarators rest b
      (s.toList ++ stored, b)

/-- `export default`: a named declaration under its name, any other value under `default`. -/
def exportDefault (r : Resolver) (declaration : NodeId) (b : Bindings) : Bindings :=
  match r.bind maxNesting declaration (some declaration) none b with
  | (some s, b) => b.markExported s
  | (none, b) =>
      match r.resolve maxNesting declaration none {} b with
      | (some s, b) => (b.setProp SymbolGraph.root defaultExport s).markExported s
      | (none, b) => b

/-- `export` of a declaration: what it stores is flagged. -/
def exportDeclaration (r : Resolver) (declaration : NodeId) (b : Bindings) : Bindings :=
  match r.ast.node declaration with
  | .variableDeclaration _ declarators =>
      let (stored, b) := r.bindDeclarators declarators b
      stored.foldl Bindings.markExported b
  | _ =>
      match r.bind maxNesting declaration (some declaration) none b with
      | (some s, b) => b.markExported s
      | (none, b) => b

/-- `export { source }`. -/
def exportSpecifier (r : Resolver) (source : NodeId) (b : Bindings) : Bindings :=
  match r.resolve maxNesting source (some SymbolGraph.root) {} b with
  | (some s, b) => b.markExported s
  | (none, b) => b.report (.unresolvedValue source ((r.ast.identifierName? source).getD "?"))

/-- The assignment pass, through at most `fuel` enclosing statements. -/
def assignThrough (r : Resolver) : Nat → NodeId → Bindings → Bindings
  | 0, _, b => b
  | fuel + 1, node, b =>
      match r.ast.node node with
      | .program body => body.foldl (fun b statement => r.assignThrough fuel statement b) b
      | .expressionStatement expression => r.assignThrough fuel expression b
      | .assignment target value => (r.bind maxNesting target (some value) none b).2
      | .variableDeclaration _ declarators => (r.bindDeclarators declarators b).2
      | .functionDeclaration (some id) =>
          if (r.ast.identifierName? id).isSome then
            (r.bind maxNesting id (some node) (some SymbolGraph.root) b).2
          else b
      | .classDeclaration (some id) body =>
          (r.bind maxNesting id (some body) (some SymbolGraph.root) b).2
      | .exportDefault declaration => r.exportDefault declaration b
      | .exportNamed declaration specifiers =>
          let b :=
            match declaration with
            | some declaration => r.exportDeclaration declaration b
            | none => b
          specifiers.foldl (fun b specifier => r.assignThrough fuel specifier b) b
      | .exportSpecifier source => r.exportSpecifier source b
      | _ => b

/-- The assignment pass from a node on. -/
def assign (r : Resolver) (node : NodeId) (b : Bindings) : Bindings :=
  r.assignThrough (node + 1) node b

/-! ### Both passes -/

/-- Bind a module: the declaration pass, then the assignment pass. -/
def bindModule (r : Resolver) (b : Bindings) : Bindings :=
  r.assign r.ast.program (r.declare r.ast.program b)

end ExportSurface.Resolver

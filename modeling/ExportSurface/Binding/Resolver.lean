/-
What an expression denotes in the symbol graph.

Resolving maps an expression to the symbol it denotes, and makes new symbols for functions, objects
and literals.  Binding stores a resolved value under a name or a property.  Both answer `none`
instead of failing, and report why.  Scoping is flat: a name is looked up in at most one scope and
then among the globals.

The depth of an expression is limited: `Resolver.resolve` recurses on the number of levels that it
may still follow.

Main definitions:

* `Bindings` — the symbol graph and the diagnostics so far;
* `Resolver.resolveNode`, `Resolver.bindWith` — one level of resolving and of binding, given the
  resolver for the levels below;
* `Resolver.resolve`, `Resolver.bind` — the same, followed to a given depth.
-/

import ExportSurface.Ast.MemberPath
import ExportSurface.Binding.Diagnostic
import ExportSurface.Symbol.Graph

set_option autoImplicit false

namespace ExportSurface

/-- What binding a module builds up: its symbols, and the diagnostics in order of their arrival. -/
structure Bindings where
  graph : SymbolGraph
  diagnostics : Array Diagnostic := #[]
  deriving DecidableEq

namespace Bindings

def report (b : Bindings) (d : Diagnostic) : Bindings :=
  { b with diagnostics := b.diagnostics.push d }

def alloc (b : Bindings) (s : Symbol) : SymbolId × Bindings :=
  let (id, graph) := b.graph.alloc s
  (id, { b with graph })

def setProp (b : Bindings) (id : SymbolId) (key : String) (target : SymbolId) : Bindings :=
  { b with graph := b.graph.setProp id key target }

def markExported (b : Bindings) (id : SymbolId) : Bindings :=
  { b with graph := b.graph.markExported id }

end Bindings

/-- How one expression is to be resolved. -/
structure ResolveOptions where
  /-- An identifier denotes its own name. -/
  simpleIdentifier : Bool := false
  /-- A missing member is made as an empty object. -/
  createMissing : Bool := false
  deriving DecidableEq

/-- How the key of a member access is read. -/
inductive KeyReading where
  /-- A plain name and a literal are read off the syntax tree. -/
  | direct
  /-- Every key is resolved like an expression, a plain name as itself. -/
  | resolved
  deriving DecidableEq

/-- A syntax tree to be resolved, and the way its keys are read. -/
structure Resolver where
  ast : Ast
  keys : KeyReading := .direct

/-- A resolver for single expressions: the node, the scope, the options and the state. -/
abbrev Resolve := NodeId → Option SymbolId → ResolveOptions → Bindings → Option SymbolId × Bindings

namespace Resolver

/-! ### One level -/

/-- The symbol that a name denotes, in the scope or else among the globals. -/
def lookup (graph : SymbolGraph) (scope : Option SymbolId) (name : String) : Option SymbolId :=
  (graph.prop? (scope.getD SymbolGraph.root) name).or (graph.global? name)

def resolveIdentifier (name : String) (scope : Option SymbolId) (options : ResolveOptions)
    (b : Bindings) : Option SymbolId × Bindings :=
  if options.simpleIdentifier then
    let (s, b) := b.alloc (.literal none (some name))
    (some s, b)
  else (lookup b.graph scope name, b)

/-- The key that an expression denotes: only literals denote one. -/
def resolvedKey? (recur : Resolve) (property : NodeId) (scope : Option SymbolId)
    (options : ResolveOptions) (b : Bindings) : Option String × Bindings :=
  match recur property scope options b with
  | (some s, b) => ((b.graph.get s).key?, b)
  | (none, b) => (none, b)

/-- The key of a member access. -/
def memberKey? (r : Resolver) (recur : Resolve) (property : NodeId) (computed : Bool)
    (scope : Option SymbolId) (b : Bindings) : Option String × Bindings :=
  match r.keys with
  | .resolved => resolvedKey? recur property scope { simpleIdentifier := !computed } b
  | .direct =>
      match r.ast.node property with
      | .identifier name =>
          if computed then resolvedKey? recur property scope {} b else (some name, b)
      | .literal value => (value.key?, b)
      | _ => resolvedKey? recur property scope {} b

/-- How a key is called in a diagnostic. -/
def describeKey (r : Resolver) (property : NodeId) (key : Option String) : String :=
  (key.or (r.ast.identifierName? property)).getD (r.ast.node property).name

/-- A function: an object with an empty `prototype`. -/
def functionSymbol (node : NodeId) (b : Bindings) : SymbolId × Bindings :=
  let (function, b) := b.alloc (.object (some node))
  let (prototype, b) := b.alloc (.object none)
  (function, b.setProp function "prototype" prototype)

/-- Add the methods of a class body that have a static name. -/
def addMethods (r : Resolver) (owner : SymbolId) (methods : List Entry) (b : Bindings) : Bindings :=
  methods.foldl (fun b m =>
    match r.ast.entryKey? m with
    | some key =>
        let (method, b) := b.alloc (.object (some m.value))
        b.setProp owner key method
    | none => b) b

/-- Add the properties of an object literal that have a static name and a value that resolves. -/
def addProperties (r : Resolver) (recur : Resolve) (scope : Option SymbolId)
    (options : ResolveOptions) (owner : SymbolId) (properties : List Entry) (b : Bindings) :
    Bindings :=
  properties.foldl (fun b p =>
    match r.ast.entryKey? p with
    | some key =>
        match recur p.value scope options b with
        | (some value, b) => b.setProp owner key value
        | (none, b) => b
    | none => b) b

/-- Report that a member access has no value. -/
def reportMissing (r : Resolver) (node property : NodeId) (key : Option String) (b : Bindings) :
    Option SymbolId × Bindings :=
  (none, b.report (.missingProperty node (r.describeKey property key)))

/-- The value of `base.property`, which is made if the options say so. -/
def resolveMember (r : Resolver) (recur : Resolve) (node base property : NodeId) (computed : Bool)
    (scope : Option SymbolId) (options : ResolveOptions) (b : Bindings) :
    Option SymbolId × Bindings :=
  let (owner, b) := recur base scope options b
  let (key, b) := r.memberKey? recur property computed scope b
  match owner, key with
  | some owner, some name =>
      match b.graph.member? owner name with
      | some existing => (some existing, b)
      | none =>
          if options.createMissing && (b.graph.get owner).hasMembers then
            let (created, b) := b.alloc (.object none)
            (some created, b.setProp owner name created)
          else r.reportMissing node property key b
  | _, _ => r.reportMissing node property key b

/-! ### Binding, given a resolver -/

/-- Store a value under a name of a scope; without a value, a placeholder. -/
def bindName (recur : Resolve) (target : NodeId) (name : String) (value : Option NodeId)
    (scope : SymbolId) (b : Bindings) : Option SymbolId × Bindings :=
  match value with
  | some value =>
      match recur value (some scope) {} b with
      | (some s, b) => (some s, b.setProp scope name s)
      | (none, b) => (none, b.report (.unresolvedValue target name))
  | none =>
      let (s, b) := b.alloc .placeholder
      (some s, b.setProp scope name s)

/-- Store a value under the property that a member access names. -/
def bindMember (r : Resolver) (recur : Resolve) (target base property : NodeId) (computed : Bool)
    (value : Option NodeId) (scope : SymbolId) (b : Bindings) : Option SymbolId × Bindings :=
  let (owner, b) := recur base (some scope) {} b
  let owner := owner.filter fun s => (b.graph.get s).hasMembers
  let (key, b) := r.memberKey? recur property computed (some scope) b
  match owner, key with
  | some owner, some key =>
      let (stored, b) :=
        match value with
        | some value => recur value (some scope) {} b
        | none => (none, b)
      match stored with
      | some s => (some s, b.setProp owner key s)
      | none => (none, b.report (.unresolvedValue target key))
  | _, _ =>
      let path := (r.ast.memberPath? target).getD "<member>"
      (none, b.report (.unresolvedTarget target path))

/-- Store a value at a target.  A named declaration stores itself among the globals, wherever it
stands: a function its declaration, a class its body. -/
def bindWith (r : Resolver) (recur : Resolve) (target : NodeId) (value : Option NodeId)
    (scope : Option SymbolId) (b : Bindings) : Option SymbolId × Bindings :=
  match r.ast.node target with
  | .classDeclaration (some id) body =>
      match r.ast.node id with
      | .identifier name => bindName recur id name (some body) SymbolGraph.root b
      | _ => (none, b)
  | .functionDeclaration (some id) =>
      match r.ast.node id with
      | .identifier name => bindName recur id name (some target) SymbolGraph.root b
      | _ => (none, b)
  | .identifier name => bindName recur target name value (scope.getD SymbolGraph.root) b
  | .member base property computed =>
      r.bindMember recur target base property computed value (scope.getD SymbolGraph.root) b
  | _ => (none, b)

/-! ### Resolving to a depth -/

/-- The symbol that a node denotes, given a resolver for its parts. -/
def resolveNode (r : Resolver) (recur : Resolve) (node : NodeId) (scope : Option SymbolId)
    (options : ResolveOptions) (b : Bindings) : Option SymbolId × Bindings :=
  match r.ast.node node with
  | .identifier name => resolveIdentifier name scope options b
  | .member base property computed =>
      r.resolveMember recur node base property computed scope options b
  | .classDeclaration _ _ | .functionDeclaration _ | .functionExpression _ | .arrowFunction =>
      let (s, b) := functionSymbol node b
      (some s, b)
  | .assignment target value => r.bindWith recur target (some value) scope b
  | .classBody methods =>
      let (s, b) := b.alloc (.object (some node))
      (some s, r.addMethods s methods b)
  | .object properties =>
      let (s, b) := b.alloc (.object (some node))
      (some s, r.addProperties recur scope options s properties b)
  | .literal value =>
      let (s, b) := b.alloc (.literal (some node) value.key?)
      (some s, b)
  | other => (none, b.report (.unsupported node other.name))

/-- The symbol that a node denotes, followed for the given number of levels. -/
def resolve (r : Resolver) : Nat → Resolve
  | 0 => fun node _ _ b => (none, b.report (.nestingLimit node))
  | levels + 1 => r.resolveNode (r.resolve levels)

/-- Store a value at a target, resolving for the given number of levels. -/
def bind (r : Resolver) (levels : Nat) (target : NodeId) (value : Option NodeId)
    (scope : Option SymbolId) (b : Bindings) : Option SymbolId × Bindings :=
  r.bindWith (r.resolve levels) target value scope b

end Resolver

end ExportSurface

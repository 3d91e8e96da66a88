/-
The binder as programs.

Every function of the binder is written out as the program of its requests, and running the program
is shown to be the same as calling the function.  The tree and the graph are accessed by requests
only, and whatever else there is to resolve, to bind or to pass over is asked for as a task of its
own, so that no program is recursive.

Main definitions:

* `Program.resolveNode`, `Program.bindWith` — to resolve a node and to bind a target;
* `Program.declareNode`, `Program.assignNode` — to pass over a node in either pass;
* `Task.program` — to perform a task.

Main result:

* `Task.run_program` — **running the program of a task comes to the same as the task**.
-/

import ExportSurface.Proofs.Programs

set_option autoImplicit false

namespace ExportSurface

namespace Program

/-! ### Look-ups -/

def prop? (id : SymbolId) (key : String) : Program (Option SymbolId) := do
  return (← symbol id).props.get? key

def member? (id : SymbolId) (key : String) : Program (Option SymbolId) := do
  let s ← symbol id
  return if s.hasMembers then s.props.get? key else none

def lookup (scope : Option SymbolId) (name : String) : Program (Option SymbolId) := do
  match ← prop? (scope.getD SymbolGraph.root) name with
  | some s => return some s
  | none => prop? SymbolGraph.root name

def identifierName? (id : NodeId) : Program (Option String) := do
  match ← node id with
  | .identifier name => return some name
  | _ => return none

def staticKey? (key : NodeId) : Program (Option String) := do
  match ← node key with
  | .identifier name => return some name
  | .literal value => return value.key?
  | _ => return none

def entryKey? (entry : Entry) : Program (Option String) :=
  if entry.computed then return none else staticKey? entry.key

def pathSegment? (property : NodeId) (computed : Bool) : Program (Option String) := do
  if computed then return some ("[" ++ (← staticKey? property).getD "?" ++ "]")
  else return (← identifierName? property).map ("." ++ ·)

def pathThrough? : Nat → NodeId → List String → Program (Option String)
  | 0, _, _ => return none
  | fuel + 1, id, segments => do
      match ← node id with
      | .identifier name => return some (String.join (name :: segments))
      | .member base property computed =>
          match ← pathSegment? property computed with
          | some segment => pathThrough? fuel base (segment :: segments)
          | none => return none
      | _ => return none

/-! ### Resolving -/

def resolveIdentifier (name : String) (scope : Option SymbolId) (options : ResolveOptions) :
    Program (Option SymbolId) := do
  if options.simpleIdentifier then return some (← alloc (.literal none (some name)))
  else lookup scope name

def resolvedKey? (levels : Nat) (property : NodeId) (scope : Option SymbolId)
    (options : ResolveOptions) : Program (Option String) := do
  match ← perform (.resolve levels property scope options) with
  | some s => return (← symbol s).key?
  | none => return none

def memberKey? (keys : KeyReading) (levels : Nat) (property : NodeId) (computed : Bool)
    (scope : Option SymbolId) : Program (Option String) :=
  match keys with
  | .resolved => resolvedKey? levels property scope { simpleIdentifier := !computed }
  | .direct => do
      match ← node property with
      | .identifier name =>
          if computed then resolvedKey? levels property scope {} else return some name
      | .literal value => return value.key?
      | _ => resolvedKey? levels property scope {}

def describeKey (property : NodeId) (key : Option String) : Program String := do
  match key with
  | some key => return key
  | none => return ((← identifierName? property).getD (← node property).name)

def functionSymbol (id : NodeId) : Program SymbolId := do
  let function ← alloc (.object (some id))
  let prototype ← alloc (.object none)
  setProp function "prototype" prototype
  return function

def addMethod (owner : SymbolId) (method : Entry) : Program Unit := do
  match ← entryKey? method with
  | some key => setProp owner key (← alloc (.object (some method.value)))
  | none => return ()

def addProperty (levels : Nat) (scope : Option SymbolId) (options : ResolveOptions)
    (owner : SymbolId) (property : Entry) : Program Unit := do
  match ← entryKey? property with
  | some key =>
      match ← perform (.resolve levels property.value scope options) with
      | some value => setProp owner key value
      | none => return ()
  | none => return ()

def reportMissing (id property : NodeId) (key : Option String) : Program (Option SymbolId) := do
  report (.missingProperty id (← describeKey property key))
  return none

/-- Make a member that is missing. -/
def createMember (owner : SymbolId) (name : String) : Program (Option SymbolId) := do
  let created ← alloc (.object none)
  setProp owner name created
  return some created

def resolveMember (keys : KeyReading) (levels : Nat) (id base property : NodeId) (computed : Bool)
    (scope : Option SymbolId) (options : ResolveOptions) : Program (Option SymbolId) := do
  let owner ← perform (.resolve levels base scope options)
  let key ← memberKey? keys levels property computed scope
  match owner, key with
  | some owner, some name =>
      match ← member? owner name with
      | some existing => return some existing
      | none =>
          if options.createMissing && (← symbol owner).hasMembers then createMember owner name
          else reportMissing id property key
  | _, _ => reportMissing id property key

def resolveNode (keys : KeyReading) (levels : Nat) (id : NodeId) (scope : Option SymbolId)
    (options : ResolveOptions) : Program (Option SymbolId) := do
  match ← node id with
  | .identifier name => resolveIdentifier name scope options
  | .member base property computed =>
      resolveMember keys levels id base property computed scope options
  | .classDeclaration _ _ | .functionDeclaration _ | .functionExpression _ | .arrowFunction =>
      return some (← functionSymbol id)
  | .assignment target value => perform (.bind levels target (some value) scope)
  | .classBody methods =>
      let s ← alloc (.object (some id))
      methods.forM (addMethod s)
      return some s
  | .object properties =>
      let s ← alloc (.object (some id))
      properties.forM (addProperty levels scope options s)
      return some s
  | .literal value => return some (← alloc (.literal (some id) value.key?))
  | other =>
      report (.unsupported id other.name)
      return none

/-! ### Binding -/

/-- Store a symbol and answer it; without one, report and answer nothing. -/
def store (owner : SymbolId) (key : String) (target : NodeId) (s : Option SymbolId) :
    Program (Option SymbolId) := do
  match s with
  | some s =>
      setProp owner key s
      return some s
  | none =>
      report (.unresolvedValue target key)
      return none

def bindName (levels : Nat) (target : NodeId) (name : String) (value : Option NodeId)
    (scope : SymbolId) : Program (Option SymbolId) := do
  match value with
  | some value => store scope name target (← perform (.resolve levels value (some scope) {}))
  | none => store scope name target (some (← alloc .placeholder))

/-- Keep a symbol that has members. -/
def withMembers (s : Option SymbolId) : Program (Option SymbolId) := do
  match s with
  | some s => return if (← symbol s).hasMembers then some s else none
  | none => return none

/-- Resolve a value that may be missing. -/
def resolveValue (levels : Nat) (value : Option NodeId) (scope : SymbolId) :
    Program (Option SymbolId) := do
  match value with
  | some value => perform (.resolve levels value (some scope) {})
  | none => return none

def bindMember (r : Resolver) (levels : Nat) (target base property : NodeId) (computed : Bool)
    (value : Option NodeId) (scope : SymbolId) : Program (Option SymbolId) := do
  let owner ← withMembers (← perform (.resolve levels base (some scope) {}))
  let key ← memberKey? r.keys levels property computed (some scope)
  match owner, key with
  | some owner, some key => store owner key target (← resolveValue levels value scope)
  | _, _ =>
      let path ← pathThrough? (r.ast.size + 1) target []
      report (.unresolvedTarget target (path.getD "<member>"))
      return none

/-- A declaration is stored among the globals, if it has a name. -/
def bindGlobal (levels : Nat) (id value : NodeId) : Program (Option SymbolId) := do
  match ← node id with
  | .identifier name => bindName levels id name (some value) SymbolGraph.root
  | _ => return none

def bindWith (r : Resolver) (levels : Nat) (target : NodeId) (value : Option NodeId)
    (scope : Option SymbolId) : Program (Option SymbolId) := do
  match ← node target with
  | .classDeclaration (some id) body => bindGlobal levels id body
  | .functionDeclaration (some id) => bindGlobal levels id target
  | .identifier name => bindName levels target name value (scope.getD SymbolGraph.root)
  | .member base property computed =>
      bindMember r levels target base property computed value (scope.getD SymbolGraph.root)
  | _ => return none

/-! ### The declaration pass -/

/-- A variable that is declared is also set on the symbol that `window` denotes. -/
def setOnWindow (target : NodeId) (s : Option SymbolId) : Program Unit := do
  let window ← prop? SymbolGraph.root "window"
  let name ← identifierName? target
  match s, window, name with
  | some s, some window, some name => setProp window name s
  | _, _, _ => return ()

def declareVariable (kind : DeclarationKind) (d : Declarator) : Program Unit := do
  let s ← perform (.bind maxNesting d.target none (some SymbolGraph.root))
  if kind.isGlobal then setOnWindow d.target s else return ()

/-- Pass over a node in either pass. -/
def visit (t : Task) : Program Unit := do
  let _ ← perform t

def declareNode (fuel : Nat) (id : NodeId) : Program Unit := do
  match ← node id with
  | .program body => body.forM fun statement => visit (.declare fuel statement)
  | .expressionStatement expression => visit (.declare fuel expression)
  | .variableDeclaration kind declarators => declarators.forM (declareVariable kind)
  | .exportNamed (some declaration) _ => visit (.declare fuel declaration)
  | _ => return ()

/-! ### The assignment pass -/

def bindDeclarators : List Declarator → Program (List SymbolId)
  | [] => return []
  | d :: rest => do
      let s ← perform (.bind maxNesting d.target d.init none)
      return s.toList ++ (← bindDeclarators rest)

/-- Flag the symbol that was found. -/
def markFound (s : Option SymbolId) : Program Unit := do
  match s with
  | some s => markExported s
  | none => return ()

/-- Keep the symbol that was found as the default export, and flag it. -/
def exportFound (s : Option SymbolId) : Program Unit := do
  match s with
  | some s =>
      setProp SymbolGraph.root Resolver.defaultExport s
      markExported s
  | none => return ()

def exportDefault (declaration : NodeId) : Program Unit := do
  match ← perform (.bind maxNesting declaration (some declaration) none) with
  | some s => markExported s
  | none => exportFound (← perform (.resolve maxNesting declaration none {}))

def exportDeclaration (declaration : NodeId) : Program Unit := do
  match ← node declaration with
  | .variableDeclaration _ declarators => (← bindDeclarators declarators).forM markExported
  | _ => markFound (← perform (.bind maxNesting declaration (some declaration) none))

/-- Export a declaration that may be missing. -/
def exportInline (declaration : Option NodeId) : Program Unit := do
  match declaration with
  | some declaration => exportDeclaration declaration
  | none => return ()

def exportSpecifier (source : NodeId) : Program Unit := do
  match ← perform (.resolve maxNesting source (some SymbolGraph.root) {}) with
  | some s => markExported s
  | none => report (.unresolvedValue source ((← identifierName? source).getD "?"))

def assignNode (fuel : Nat) (id : NodeId) : Program Unit := do
  match ← node id with
  | .program body => body.forM fun statement => visit (.assign fuel statement)
  | .expressionStatement expression => visit (.assign fuel expression)
  | .assignment target value => visit (.bind maxNesting target (some value) none)
  | .variableDeclaration _ declarators =>
      let _ ← bindDeclarators declarators
  | .functionDeclaration (some name) =>
      if (← identifierName? name).isSome then
        visit (.bind maxNesting name (some id) (some SymbolGraph.root))
      else return ()
  | .classDeclaration (some name) body =>
      visit (.bind maxNesting name (some body) (some SymbolGraph.root))
  | .exportDefault declaration => exportDefault declaration
  | .exportNamed declaration specifiers =>
      exportInline declaration
      specifiers.forM fun specifier => visit (.assign fuel specifier)
  | .exportSpecifier source => exportSpecifier source
  | _ => return ()

end Program

/-- The program of a task. -/
def Task.program (r : Resolver) : Task → Program (Option SymbolId)
  | resolve 0 id _ _ => do
      Program.report (.nestingLimit id)
      return none
  | resolve (levels + 1) id scope options => Program.resolveNode r.keys levels id scope options
  | bind levels target value scope => Program.bindWith r levels target value scope
  | declare 0 _ | assign 0 _ => return none
  | declare (fuel + 1) id => do
      Program.declareNode fuel id
      return none
  | assign (fuel + 1) id => do
      Program.assignNode fuel id
      return none

/-! ### Running -/

namespace Program

section run

variable (r : Resolver) (b : Bindings)

@[simp] theorem run_prop? (id : SymbolId) (key : String) :
    (prop? id key).run r b = (b.graph.prop? id key, b) := rfl

@[simp] theorem run_member? (id : SymbolId) (key : String) :
    (member? id key).run r b = (b.graph.member? id key, b) := rfl

@[simp] theorem run_lookup (scope : Option SymbolId) (name : String) :
    (lookup scope name).run r b = (Resolver.lookup b.graph scope name, b) := by
  rw [lookup, run_bind, run_prop?, Resolver.lookup]
  cases b.graph.prop? (scope.getD SymbolGraph.root) name <;> rfl

@[simp] theorem run_identifierName? (id : NodeId) :
    (identifierName? id).run r b = (r.ast.identifierName? id, b) := by
  rw [identifierName?, run_bind, run_node, Ast.identifierName?]
  cases r.ast.node id <;> rfl

@[simp] theorem run_staticKey? (key : NodeId) :
    (staticKey? key).run r b = (r.ast.staticKey? key, b) := by
  rw [staticKey?, run_bind, run_node, Ast.staticKey?]
  cases r.ast.node key <;> rfl

@[simp] theorem run_entryKey? (entry : Entry) :
    (entryKey? entry).run r b = (r.ast.entryKey? entry, b) := by
  rw [entryKey?, Ast.entryKey?]
  cases entry.computed with
  | true => rfl
  | false => exact run_staticKey? ..

@[simp] theorem run_pathSegment? (property : NodeId) (computed : Bool) :
    (pathSegment? property computed).run r b = (r.ast.pathSegment? property computed, b) := by
  rw [pathSegment?, Ast.pathSegment?]
  cases computed with
  | true => simp
  | false => simp

@[simp] theorem run_pathThrough? (fuel : Nat) (id : NodeId) (segments : List String) :
    (pathThrough? fuel id segments).run r b = (r.ast.pathThrough? fuel id segments, b) := by
  induction fuel generalizing id segments with
  | zero => rfl
  | succ fuel ih =>
      rw [pathThrough?, run_bind, run_node, Ast.pathThrough?]
      cases r.ast.node id with
      | member base property computed =>
          dsimp only
          rw [run_bind, run_pathSegment?]
          cases r.ast.pathSegment? property computed with
          | none => rfl
          | some segment => exact ih base (segment :: segments)
      | _ => rfl

@[simp] theorem run_describeKey (property : NodeId) (key : Option String) :
    (describeKey property key).run r b = (r.describeKey property key, b) := by
  cases key with
  | some key => rfl
  | none =>
      rw [describeKey, run_bind, run_identifierName?]
      rfl

@[simp] theorem run_withMembers (s : Option SymbolId) :
    (withMembers s).run r b = (s.filter fun t => (b.graph.get t).hasMembers, b) := by
  cases s with
  | none => rfl
  | some t =>
      rw [withMembers, run_bind, run_symbol, Option.filter]
      split <;> rfl

/-! ### Resolving -/

@[simp] theorem run_resolveIdentifier (name : String) (scope : Option SymbolId)
    (options : ResolveOptions) :
    (resolveIdentifier name scope options).run r b =
      Resolver.resolveIdentifier name scope options b := by
  rw [resolveIdentifier, Resolver.resolveIdentifier]
  split
  · rfl
  · exact run_lookup ..

@[simp] theorem run_resolvedKey? (levels : Nat) (property : NodeId) (scope : Option SymbolId)
    (options : ResolveOptions) :
    (resolvedKey? levels property scope options).run r b =
      Resolver.resolvedKey? (r.resolve levels) property scope options b := by
  rw [resolvedKey?, run_bind, run_perform, Task.run, Resolver.resolvedKey?]
  rcases r.resolve levels property scope options b with ⟨_ | s, c⟩ <;> rfl

@[simp] theorem run_memberKey? (levels : Nat) (property : NodeId) (computed : Bool)
    (scope : Option SymbolId) :
    (memberKey? r.keys levels property computed scope).run r b =
      r.memberKey? (r.resolve levels) property computed scope b := by
  unfold memberKey? Resolver.memberKey?
  cases r.keys with
  | resolved => exact run_resolvedKey? ..
  | direct =>
      dsimp only
      rw [run_bind, run_node]
      cases r.ast.node property with
      | identifier name =>
          cases computed with
          | true => exact run_resolvedKey? ..
          | false => rfl
      | literal value => rfl
      | _ => exact run_resolvedKey? ..

theorem run_addMethod (owner : SymbolId) (m : Entry) :
    (addMethod owner m).run r b = ((), r.addMethods owner [m] b) := by
  rw [addMethod, run_bind, run_entryKey?, Resolver.addMethods, List.foldl_cons]
  cases r.ast.entryKey? m <;> rfl

theorem run_addMethods (owner : SymbolId) (methods : List Entry) :
    (methods.forM (addMethod owner)).run r b = ((), r.addMethods owner methods b) :=
  run_forM r b (fun b m => congrArg Prod.snd (run_addMethod r b owner m)) methods

theorem run_addProperty (levels : Nat) (scope : Option SymbolId) (options : ResolveOptions)
    (owner : SymbolId) (p : Entry) :
    (addProperty levels scope options owner p).run r b =
      ((), r.addProperties (r.resolve levels) scope options owner [p] b) := by
  rw [addProperty, run_bind, run_entryKey?, Resolver.addProperties, List.foldl_cons]
  cases r.ast.entryKey? p with
  | none => rfl
  | some key =>
      dsimp only
      rw [run_bind, run_perform, Task.run]
      rcases r.resolve levels p.value scope options b with ⟨_ | s, c⟩ <;> rfl

theorem run_addProperties (levels : Nat) (scope : Option SymbolId) (options : ResolveOptions)
    (owner : SymbolId) (properties : List Entry) :
    (properties.forM (addProperty levels scope options owner)).run r b =
      ((), r.addProperties (r.resolve levels) scope options owner properties b) :=
  run_forM r b (fun b p => congrArg Prod.snd (run_addProperty r b levels scope options owner p))
    properties

@[simp] theorem run_reportMissing (id property : NodeId) (key : Option String) :
    (reportMissing id property key).run r b = r.reportMissing id property key b := by
  rw [reportMissing, run_bind, run_describeKey]
  rfl

theorem run_resolveMember (levels : Nat) (id base property : NodeId) (computed : Bool)
    (scope : Option SymbolId) (options : ResolveOptions) :
    (resolveMember r.keys levels id base property computed scope options).run r b =
      r.resolveMember (r.resolve levels) id base property computed scope options b := by
  rw [resolveMember, run_bind, run_perform, Task.run, run_bind, run_memberKey?,
    Resolver.resolveMember]
  rcases r.resolve levels base scope options b with ⟨owner, c⟩
  dsimp only
  rcases r.memberKey? (r.resolve levels) property computed scope c with ⟨key, d⟩
  cases owner with
  | none => exact run_reportMissing ..
  | some owner =>
      cases key with
      | none => exact run_reportMissing ..
      | some name =>
          dsimp only
          rw [run_bind, run_member?]
          cases d.graph.member? owner name with
          | some existing => rfl
          | none =>
              dsimp only
              rw [run_bind, run_symbol]
              dsimp only
              split
              · rfl
              · exact run_reportMissing ..

theorem run_resolveNode (levels : Nat) (id : NodeId) (scope : Option SymbolId)
    (options : ResolveOptions) :
    (resolveNode r.keys levels id scope options).run r b =
      r.resolve (levels + 1) id scope options b := by
  rw [resolveNode, run_bind, run_node, Resolver.resolve, Resolver.resolveNode]
  cases r.ast.node id with
  | identifier name => exact run_resolveIdentifier ..
  | member base property computed => exact run_resolveMember ..
  | classBody methods =>
      dsimp only
      rw [run_bind, run_alloc, run_bind, run_addMethods]
      rfl
  | object properties =>
      dsimp only
      rw [run_bind, run_alloc, run_bind, run_addProperties]
      rfl
  | _ => rfl

/-! ### Binding -/

theorem run_bindName (levels : Nat) (target : NodeId) (name : String) (value : Option NodeId)
    (scope : SymbolId) :
    (bindName levels target name value scope).run r b =
      Resolver.bindName (r.resolve levels) target name value scope b := by
  cases value with
  | none => rfl
  | some v =>
      rw [bindName, run_bind, run_perform, Task.run, Resolver.bindName]
      rcases r.resolve levels v (some scope) {} b with ⟨_ | s, c⟩ <;> rfl

theorem run_bindMember (levels : Nat) (target base property : NodeId) (computed : Bool)
    (value : Option NodeId) (scope : SymbolId) :
    (bindMember r levels target base property computed value scope).run r b =
      r.bindMember (r.resolve levels) target base property computed value scope b := by
  have hpath : ∀ c : Bindings, (do
      let path ← pathThrough? (r.ast.size + 1) target []
      report (.unresolvedTarget target (path.getD "<member>"))
      return (none : Option SymbolId)).run r c =
        (none,
          c.report (.unresolvedTarget target ((r.ast.memberPath? target).getD "<member>"))) := by
    intro c
    rw [run_bind, run_pathThrough?]
    rfl
  rw [bindMember, run_bind, run_perform, Task.run, run_bind, run_withMembers, run_bind,
    run_memberKey?, Resolver.bindMember]
  rcases r.resolve levels base (some scope) {} b with ⟨owner, c⟩
  dsimp only
  rcases r.memberKey? (r.resolve levels) property computed (some scope) c with ⟨key, d⟩
  dsimp only
  cases owner.filter fun s => (c.graph.get s).hasMembers with
  | none => exact hpath d
  | some owner =>
      cases key with
      | none => exact hpath d
      | some key =>
          dsimp only
          cases value with
          | none => rfl
          | some v =>
              rw [run_bind, resolveValue, run_perform, Task.run]
              dsimp only
              rcases r.resolve levels v (some scope) {} d with ⟨_ | s, e⟩ <;> rfl

theorem run_bindGlobal (levels : Nat) (id value : NodeId) :
    (bindGlobal levels id value).run r b =
      match r.ast.node id with
      | .identifier name =>
          Resolver.bindName (r.resolve levels) id name (some value) SymbolGraph.root b
      | _ => (none, b) := by
  rw [bindGlobal, run_bind, run_node]
  cases r.ast.node id with
  | identifier name => exact run_bindName ..
  | _ => rfl

theorem run_bindWith (levels : Nat) (target : NodeId) (value : Option NodeId)
    (scope : Option SymbolId) :
    (bindWith r levels target value scope).run r b = r.bind levels target value scope b := by
  rw [bindWith, run_bind, run_node, Resolver.bind, Resolver.bindWith]
  cases r.ast.node target with
  | classDeclaration id body =>
      cases id with
      | none => rfl
      | some id => exact run_bindGlobal ..
  | functionDeclaration id =>
      cases id with
      | none => rfl
      | some id => exact run_bindGlobal ..
  | identifier name => exact run_bindName ..
  | member base property computed => exact run_bindMember ..
  | _ => rfl

/-! ### Passing over a node -/

theorem run_declareVariable (kind : DeclarationKind) (d : Declarator) :
    (declareVariable kind d).run r b = ((), r.declareVariable kind b d) := by
  rw [declareVariable, run_bind, run_perform, Task.run, Resolver.declareVariable]
  rcases r.bind maxNesting d.target none (some SymbolGraph.root) b with ⟨s, c⟩
  dsimp only
  cases kind.isGlobal with
  | false => rfl
  | true =>
      rw [if_pos rfl, setOnWindow, run_bind, run_prop?, run_bind, run_identifierName?]
      dsimp only [SymbolGraph.window?]
      cases s with
      | none => rfl
      | some s =>
          cases c.graph.prop? SymbolGraph.root "window" with
          | none => rfl
          | some window => cases r.ast.identifierName? d.target <;> rfl

theorem run_declareNode (fuel : Nat) (id : NodeId) :
    (declareNode fuel id).run r b = ((), r.declareThrough (fuel + 1) id b) := by
  rw [declareNode, run_bind, run_node, Resolver.declareThrough]
  cases r.ast.node id with
  | program body => exact run_forM r b (fun _ _ => rfl) body
  | variableDeclaration kind declarators =>
      refine run_forM r b (fun b d => ?_) declarators
      rw [run_declareVariable]
  | exportNamed declaration specifiers => cases declaration <;> rfl
  | _ => rfl

theorem run_bindDeclarators (declarators : List Declarator) :
    (bindDeclarators declarators).run r b = r.bindDeclarators declarators b := by
  induction declarators generalizing b with
  | nil => rfl
  | cons d rest ih =>
      rw [bindDeclarators, run_bind, run_bind, ih, Resolver.bindDeclarators]
      rfl

theorem run_exportDefault (declaration : NodeId) :
    (exportDefault declaration).run r b = ((), r.exportDefault declaration b) := by
  rw [exportDefault, run_bind, run_perform, Task.run, Resolver.exportDefault]
  rcases r.bind maxNesting declaration (some declaration) none b with ⟨_ | s, c⟩
  · dsimp only
    rw [run_bind, run_perform, Task.run]
    rcases r.resolve maxNesting declaration none {} c with ⟨_ | s, d⟩ <;> rfl
  · rfl

theorem run_exportDeclaration (declaration : NodeId) :
    (exportDeclaration declaration).run r b = ((), r.exportDeclaration declaration b) := by
  rw [exportDeclaration, run_bind, run_node, Resolver.exportDeclaration]
  cases r.ast.node declaration with
  | variableDeclaration kind declarators =>
      dsimp only
      rw [run_bind, run_bindDeclarators]
      exact run_forM r _ (fun _ _ => rfl) _
  | _ =>
      dsimp only
      rw [run_bind, run_perform, Task.run]
      rcases r.bind maxNesting declaration (some declaration) none b with ⟨_ | s, c⟩ <;> rfl

theorem run_exportSpecifier (source : NodeId) :
    (exportSpecifier source).run r b = ((), r.exportSpecifier source b) := by
  rw [exportSpecifier, run_bind, run_perform, Task.run, Resolver.exportSpecifier]
  rcases r.resolve maxNesting source (some SymbolGraph.root) {} b with ⟨_ | s, c⟩
  · dsimp only
    rw [run_bind, run_identifierName?]
    rfl
  · rfl

theorem run_assignNode (fuel : Nat) (id : NodeId) :
    (assignNode fuel id).run r b = ((), r.assignThrough (fuel + 1) id b) := by
  rw [assignNode, run_bind, run_node, Resolver.assignThrough]
  cases r.ast.node id with
  | program body => exact run_forM r b (fun _ _ => rfl) body
  | variableDeclaration kind declarators =>
      dsimp only
      rw [run_bind, run_bindDeclarators]
      rfl
  | functionDeclaration name =>
      cases name with
      | none => rfl
      | some name =>
          dsimp only
          rw [run_bind, run_identifierName?]
          dsimp only
          split <;> rfl
  | classDeclaration name body => cases name <;> rfl
  | exportDefault declaration => exact run_exportDefault ..
  | exportNamed declaration specifiers =>
      dsimp only
      rw [run_bind]
      cases declaration with
      | none => exact run_forM r b (fun _ _ => rfl) specifiers
      | some declaration =>
          rw [exportInline, run_exportDeclaration]
          exact run_forM r _ (fun _ _ => rfl) specifiers
  | exportSpecifier source => exact run_exportSpecifier ..
  | _ => rfl

end run

end Program

/-- **Running the program of a task comes to the same as the task.** -/
theorem Task.run_program (r : Resolver) (t : Task) (b : Bindings) :
    (t.program r).run r b = t.run r b := by
  cases t with
  | resolve levels id scope options =>
      cases levels with
      | zero => rfl
      | succ levels => exact Program.run_resolveNode ..
  | bind levels target value scope => exact Program.run_bindWith ..
  | declare fuel id =>
      cases fuel with
      | zero => rfl
      | succ fuel =>
          rw [program, Program.run_bind, Program.run_declareNode]
          rfl
  | assign fuel id =>
      cases fuel with
      | zero => rfl
      | succ fuel =>
          rw [program, Program.run_bind, Program.run_assignNode]
          rfl

end ExportSurface

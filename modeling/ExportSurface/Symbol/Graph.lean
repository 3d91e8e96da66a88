/-
The symbol graph of one module.

Every value that the binder can reason about becomes a symbol, and a property is an edge to the
symbol it holds.  Aliases (`exports` and `module.exports`) are edges to one symbol, and cycles
(`window` is the global scope itself) are edges back.  Symbol 0 is the global scope.  Positions are
natural numbers without a bound: a graph of more than `2 ^ 32` symbols, whose positions do not fit a
word of 32 bits, is outside the model.

Main definitions:

* `Symbol`, `SymbolGraph` — one symbol, and an arena of them;
* `SymbolGraph.alloc`, `SymbolGraph.setProp`, `SymbolGraph.markExported` — the only changes that
  binding a module makes;
* `SymbolGraph.prop?`, `SymbolGraph.member?` — a property as such, and as member access sees it;
* `SymbolGraph.moduleExports?` — the object that `module.exports` stands for;
* `SymbolGraph.stats` — counts for the report.
-/

import ExportSurface.Ast.Node
import ExportSurface.Symbol.Props

set_option autoImplicit false

namespace ExportSurface

/-- What a symbol stands for. -/
inductive SymbolKind where
  /-- Declared, without a value yet. -/
  | unknown
  /-- A scalar; it has no members. -/
  | literal
  /-- A function, a class, a class body or an object literal. -/
  | object
  deriving DecidableEq

def SymbolKind.text : SymbolKind → String
  | .unknown => "unknown"
  | .literal => "literal"
  | .object => "object"

/-- A value that the binder can reason about. -/
structure Symbol where
  kind : SymbolKind := .unknown
  /-- The syntax node that the symbol was made for, compared by identity only. -/
  value : Option NodeId := none
  /-- The property name that a literal stands for. -/
  scalar : Option String := none
  props : Props := .empty
  exported : Bool := false
  deriving DecidableEq

namespace Symbol

def placeholder : Symbol := {}

def object (value : Option NodeId) : Symbol := { kind := .object, value }

def literal (value : Option NodeId) (scalar : Option String) : Symbol :=
  { kind := .literal, value, scalar }

/-- Literals have no members. -/
def hasMembers (s : Symbol) : Bool := s.kind != .literal

/-- The symbol was made for the given node, and is an object. -/
def wraps (s : Symbol) (target : NodeId) : Bool := s.kind == .object && s.value == some target

/-- The property name that a symbol yields as a computed key. -/
def key? (s : Symbol) : Option String :=
  match s.kind with
  | .literal => s.scalar
  | _ => none

end Symbol

/-- The symbols of one module. -/
structure SymbolGraph where
  symbols : Array Symbol
  deriving DecidableEq

/-- Counts over a symbol graph. -/
structure GraphStats where
  symbols : Nat
  objects : Nat
  literals : Nat
  placeholders : Nat
  exported : Nat
  edges : Nat
  globals : Nat
  deriving DecidableEq

namespace SymbolGraph

/-- The global scope. -/
def root : SymbolId := 0

/-- The graph of a module with an empty global scope. -/
def empty : SymbolGraph := ⟨#[.placeholder]⟩

def size (g : SymbolGraph) : Nat := g.symbols.size

/-- The symbol at a position; past the end of the arena there are only placeholders. -/
def get (g : SymbolGraph) (id : SymbolId) : Symbol := g.symbols[id]?.getD .placeholder

/-! ### Changes -/

/-- Add a symbol. -/
def alloc (g : SymbolGraph) (s : Symbol) : SymbolId × SymbolGraph :=
  (g.size, ⟨g.symbols.push s⟩)

/-- Change one symbol. -/
def modify (g : SymbolGraph) (id : SymbolId) (f : Symbol → Symbol) : SymbolGraph :=
  ⟨g.symbols.modify id f⟩

/-- Point the property `key` of a symbol at a target, replacing any previous edge. -/
def setProp (g : SymbolGraph) (id : SymbolId) (key : String) (target : SymbolId) : SymbolGraph :=
  g.modify id fun s => { s with props := s.props.insert key target }

def setScalar (g : SymbolGraph) (id : SymbolId) (scalar : Option String) : SymbolGraph :=
  g.modify id fun s => { s with scalar }

def markExported (g : SymbolGraph) (id : SymbolId) : SymbolGraph :=
  g.modify id fun s => { s with exported := true }

/-- The globals that a module can rely on: `module` and `exports`, with `module.exports` and
`exports` one object, and `window`, which is the global scope. -/
def seed (g : SymbolGraph) (commonJs window : Bool) : SymbolGraph :=
  let g :=
    if commonJs then
      let (module', g) := g.alloc (.object none)
      let (exports, g) := g.alloc (.object none)
      ((g.setProp module' "exports" exports).setProp root "module" module').setProp
        root "exports" exports
    else g
  if window then g.setProp root "window" root else g

/-! ### Look-ups -/

/-- A property, whatever the kind of the symbol. -/
def prop? (g : SymbolGraph) (id : SymbolId) (key : String) : Option SymbolId :=
  (g.get id).props.get? key

/-- A property as member access sees it; literals have none. -/
def member? (g : SymbolGraph) (id : SymbolId) (key : String) : Option SymbolId :=
  if (g.get id).hasMembers then g.prop? id key else none

/-- The symbols one member access away. -/
def members (g : SymbolGraph) (id : SymbolId) : List SymbolId :=
  if (g.get id).hasMembers then (g.get id).props.targets else []

/-- The object that `module.exports` stands for. -/
def moduleExports? (g : SymbolGraph) : Option SymbolId :=
  match g.prop? root "module" with
  | some module' => g.prop? module' "exports"
  | none => none

/-- The alias of the global scope. -/
def window? (g : SymbolGraph) : Option SymbolId := g.prop? root "window"

/-- A name of the global scope. -/
def global? (g : SymbolGraph) (name : String) : Option SymbolId := g.prop? root name

/-! ### Well-formedness and counts -/

/-- Every property points at a symbol of the graph. -/
def InRange (g : SymbolGraph) : Prop :=
  ∀ id < g.size, ∀ t ∈ (g.get id).props.targets, t < g.size

def countKind (g : SymbolGraph) (kind : SymbolKind) : Nat :=
  g.symbols.countP fun s => s.kind == kind

def stats (g : SymbolGraph) : GraphStats where
  symbols := g.size
  objects := g.countKind .object
  literals := g.countKind .literal
  placeholders := g.countKind .unknown
  exported := g.symbols.countP fun s => s.exported
  edges := g.symbols.foldl (fun n s => n + s.props.size) 0
  globals := (g.get root).props.size

end SymbolGraph

end ExportSurface

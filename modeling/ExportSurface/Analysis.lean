/-
The export surface of a module.

A module is bound once and then asked any number of times whether a syntax node is part of what the
module exports.  There are two channels: through `module.exports`, and through symbols flagged by
export declarations.

Main definitions:

* `AnalysisOptions` — which channels are on, and whether `window` is known;
* `Analysis.ofAst` — bind a module;
* `SymbolGraph.isExported` — is a node part of the export surface?
* `Report.build` — the answers for all candidates of a module.
-/

import ExportSurface.Ast.Candidate
import ExportSurface.Binding.Passes
import ExportSurface.Symbol.Search

set_option autoImplicit false

namespace ExportSurface

/-- The switches of an analysis; everything is on by default. -/
structure AnalysisOptions where
  /-- Follow export declarations. -/
  esm : Bool := true
  /-- Provide `module.exports` and `exports`, and follow assignments to them. -/
  commonJs : Bool := true
  /-- Provide `window` as an alias of the global scope. -/
  window : Bool := true
  deriving DecidableEq

namespace AnalysisOptions

def esmOnly : AnalysisOptions := { commonJs := false }

def commonJsOnly : AnalysisOptions := { esm := false }

end AnalysisOptions

/-- Is the node part of the export surface, through a channel that is on? -/
def SymbolGraph.isExported (g : SymbolGraph) (target : NodeId) (options : AnalysisOptions) : Bool :=
  (options.commonJs && g.moduleExports?.any (g.findNode target)) ||
    (options.esm && g.findExported target SymbolGraph.root)

namespace Analysis

/-- The graph in which binding a module starts. -/
def start (options : AnalysisOptions) : Bindings :=
  { graph := SymbolGraph.empty.seed options.commonJs options.window }

/-- Bind a module. -/
def ofAst (ast : Ast) (options : AnalysisOptions) : Bindings :=
  Resolver.bindModule { ast } (start options)

end Analysis

/-- A candidate with the answer for it. -/
structure CandidateStatus where
  candidate : Candidate
  exported : Bool
  deriving DecidableEq

/-- The answers for one module. -/
structure Report where
  path : String
  candidates : List CandidateStatus

namespace Report

/-- Ask about every candidate of a module. -/
def build (path : String) (ast : Ast) (graph : SymbolGraph) (options : AnalysisOptions) :
    Report where
  path
  candidates := ast.candidates.map fun c => ⟨c, graph.isExported c.node options⟩

def exportedCount (r : Report) : Nat := r.candidates.countP (·.exported)

/-- The report without the candidates that are not exported. -/
def retainExported (r : Report) : Report :=
  { r with candidates := r.candidates.filter (·.exported) }

end Report

end ExportSurface

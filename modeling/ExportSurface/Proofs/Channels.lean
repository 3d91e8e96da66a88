/-
What comes through each of the two export channels.

A node is exported through a flagged symbol or through `module.exports`.  Without export syntax no
symbol is flagged, and a module that never says `module` or `exports` cannot put anything where
`module.exports` looks, however it aliases the global scope.  A last statement `module.exports = e`
decides the second channel alone: if `module` can be given members and `e` resolves, the channel is
what `e` reaches; otherwise the statement leaves both channels as they were, since all that it can
have made are new symbols that nothing points at.

Main definitions:

* `Node.isExport` — export syntax;
* `Ast.AssignsModuleExports` — the statement `module.exports = e`;
* `Analysis.passed` — the state after some statements.

Main results:

* `Analysis.isExported_eq_false_of_no_export_syntax` — **what a module does not export is not
  reported**;
* `SymbolGraph.Extends.isExported_eq` — new symbols that nothing points at export nothing;
* `Analysis.moduleExports_decided_by_last` — **the last `module.exports = e` decides**.
-/

import ExportSurface.Proofs.ExportFlags
import ExportSurface.Proofs.Reading
import ExportSurface.Proofs.SeedIndependence

set_option autoImplicit false

namespace ExportSurface

open SymbolGraph (root)

/-! ### Without export syntax -/

/-- Export syntax: an export statement, or one of its specifiers. -/
def Node.isExport : Node → Bool
  | .exportDefault _ | .exportNamed _ _ | .exportSpecifier _ => true
  | _ => false

theorem Resolver.exportsAt_eq_nil {r : Resolver} {n : NodeId}
    (h : (r.ast.node n).isExport = false) (c : Bindings) : r.exportsAt n c = [] := by
  rw [exportsAt]
  cases hnode : r.ast.node n with
  | exportDefault _ => simp [hnode, Node.isExport] at h
  | exportNamed _ _ => simp [hnode, Node.isExport] at h
  | exportSpecifier _ => simp [hnode, Node.isExport] at h
  | _ => rfl

/-- Past the end of the arena there is no export syntax either. -/
theorem Ast.isExport_eq_false {ast : Ast} (h : ∀ id < ast.size, (ast.node id).isExport = false)
    (id : NodeId) : (ast.node id).isExport = false := by
  rcases Nat.lt_or_ge id ast.size with hlt | hge
  · exact h id hlt
  · rw [Ast.node, Array.getElem?_eq_none hge]
    rfl

/-- While `module` is hidden, nothing comes through `module.exports`, in either state. -/
theorem Bindings.Renamed.any_moduleExports_eq_false {ρ : SymbolId → SymbolId}
    {hidden : List String} {b b' : Bindings} (h : Renamed ρ hidden b b')
    (hmodule : "module" ∈ hidden) (target : NodeId) :
    b.graph.moduleExports?.any (b.graph.findNode target) = false ∧
      b'.graph.moduleExports?.any (b'.graph.findNode target) = false := by
  have hnone : b.graph.moduleExports?.any (b.graph.findNode target) = false := by
    rw [SymbolGraph.moduleExports?, h.prop?_hidden root "module" hmodule]
    rfl
  have hpair : "module" ∉ hidden → "exports" ∉ hidden := fun hnot => absurd hmodule hnot
  exact ⟨hnone, (h.any_moduleExports_eq hpair target).trans hnone⟩

namespace Analysis

/-- Without export syntax no symbol is flagged. -/
theorem not_flagged_of_no_exports {ast : Ast} (options : AnalysisOptions)
    (hfirst : ast.ChildrenFirst) (hprogram : ast.program < ast.size)
    (h : ∀ id < ast.size, (ast.node id).isExport = false) (s : SymbolId) :
    ¬ (ofAst ast options).Flagged s := by
  have hb := inBounds_declared options hfirst hprogram
  intro hflag
  rcases (Resolver.flagged_assign_iff (r := { ast }) hfirst hprogram hb s).1 hflag with
    hold | ⟨n, c, -, hs⟩
  · exact not_flagged_declared ast options s hold
  · rw [Resolver.exportsAt_eq_nil (Ast.isExport_eq_false h n)] at hs
    exact List.not_mem_nil hs

/-- A module that never says `module` or `exports` puts nothing where `module.exports` looks. -/
theorem any_moduleExports_eq_false {ast : Ast} (options : AnalysisOptions)
    (h : ast.Avoids ["module", "exports"]) (target : NodeId) :
    (ofAst ast options).graph.moduleExports?.any
      ((ofAst ast options).graph.findNode target) = false := by
  -- The runs with and without the two globals mirror each other; the one without has no `module`.
  obtain ⟨ρ, -, hmirrors⟩ := Resolver.bindModule_stays (r := { ast }) rfl h (by decide) (by decide)
    (Bindings.mirrors_commonJs options.window)
  obtain ⟨hunseeded, hseeded⟩ :=
    hmirrors.toRenamed.any_moduleExports_eq_false (by decide) target
  have hstart : ofAst ast options =
      Resolver.bindModule { ast } (.seeded options.commonJs options.window) := rfl
  rw [hstart]
  cases options.commonJs with
  | false => exact hunseeded
  | true => exact hseeded

/-- **What a module does not export is not reported.**  Without export syntax nothing comes through
flagged symbols, and in a module that never says `module` or `exports`, as a name or as the text of
a literal key, nothing comes through `module.exports`, whatever else it does. -/
theorem isExported_eq_false_of_no_export_syntax (ast : Ast) (options : AnalysisOptions)
    (hfirst : ast.ChildrenFirst) (hprogram : ast.program < ast.size) :
    ((∀ id < ast.size, (ast.node id).isExport = false) →
      ∀ (target : NodeId) (query : AnalysisOptions), query.commonJs = false →
        (ofAst ast options).graph.isExported target query = false) ∧
    (ast.Avoids ["module", "exports"] →
      ∀ (target : NodeId) (query : AnalysisOptions), query.esm = false →
        (ofAst ast options).graph.isExported target query = false) := by
  constructor
  · intro hexports target query hquery
    have hnone : (ofAst ast options).graph.findExported target root = false := by
      rw [Bool.eq_false_iff]
      intro hfound
      obtain ⟨s, -, hflag, -⟩ := SymbolGraph.findExported_eq_true_iff.1 hfound
      exact not_flagged_of_no_exports options hfirst hprogram hexports s hflag
    rw [SymbolGraph.isExported, hquery, hnone, Bool.false_and, Bool.and_false, Bool.false_or]
  · intro havoid target query hquery
    rw [SymbolGraph.isExported, hquery, any_moduleExports_eq_false options havoid target,
      Bool.and_false, Bool.false_and, Bool.false_or]

/-- The module `var k = "b"; window[k] = a = { c: () => {} };`, which fills the global scope through
its alias. -/
def fillsWindow : Ast where
  nodes := ([.identifier "k", .literal (.string "b"), .variableDeclaration .var [⟨0, some 1⟩],
    .identifier "window", .identifier "k", .member 3 4 true, .identifier "a", .identifier "c",
    .arrowFunction, .object [⟨7, 8, false⟩], .assignment 6 9, .assignment 5 10,
    .expressionStatement 11, .program [2, 12]].map fun n => ⟨n, ⟨1, 1⟩⟩).toArray
  program := 13

/-- The arrow function is a member of the global `b`, and neither channel reports it. -/
theorem fillsWindow_not_exported :
    fillsWindow.ChildrenFirst ∧ fillsWindow.Avoids ["module", "exports"] ∧
      (∀ id < fillsWindow.size, (fillsWindow.node id).isExport = false) ∧
      (ofAst fillsWindow {}).graph.global? "b" = some 5 ∧
      (ofAst fillsWindow {}).graph.prop? 5 "c" = some 6 ∧
      ((ofAst fillsWindow {}).graph.get 6).wraps 8 = true ∧
      (ofAst fillsWindow {}).graph.isExported 8 .esmOnly = false ∧
      (ofAst fillsWindow {}).graph.isExported 8 .commonJsOnly = false := by
  have hfirst : fillsWindow.ChildrenFirst := by
    unfold Ast.ChildrenFirst
    decide
  have havoid : fillsWindow.Avoids ["module", "exports"] := by
    unfold Ast.Avoids
    decide
  have hexports : ∀ id < fillsWindow.size, (fillsWindow.node id).isExport = false := by decide
  obtain ⟨hesm, hcommonJs⟩ :=
    isExported_eq_false_of_no_export_syntax fillsWindow {} hfirst (by decide)
  exact ⟨hfirst, havoid, hexports, by decide +kernel, by decide +kernel, by decide +kernel,
    hesm hexports 8 .esmOnly rfl, hcommonJs havoid 8 .commonJsOnly rfl⟩

end Analysis

/-! ### Symbols that nothing points at -/

namespace SymbolGraph

variable {g g' : SymbolGraph} {target : NodeId}

theorem InRange.lt_of_edge (hrange : g.InRange) {u v : SymbolId} (he : g.Edge u v) :
    v < g.size := by
  obtain ⟨-, key, hkey⟩ := he
  exact hrange.lt_size hkey

theorem InRange.lt_of_reaches (hrange : g.InRange) {u v : SymbolId} (hu : u < g.size)
    (hr : g.Reaches u v) : v < g.size := by
  induction hr with
  | refl => exact hu
  | step he _ ih => exact ih (hrange.lt_of_edge he)

namespace Extends

theorem prop?_eq (h : g.Extends g') {id : SymbolId} (hid : id < g.size) (key : String) :
    g'.prop? id key = g.prop? id key := by
  rw [prop?, prop?, h.get_eq id hid]

theorem edge_iff (h : g.Extends g') {u v : SymbolId} (hu : u < g.size) :
    g'.Edge u v ↔ g.Edge u v := by
  simp only [Edge, h.prop?_eq hu, h.get_eq u hu]

theorem reaches_iff (h : g.Extends g') (hrange : g.InRange) {u v : SymbolId} (hu : u < g.size) :
    g'.Reaches u v ↔ g.Reaches u v := by
  constructor
  · intro hr
    induction hr with
    | refl => exact .refl _
    | step he _ ih =>
        have he' := (h.edge_iff hu).1 he
        exact .step he' (ih (hrange.lt_of_edge he'))
  · intro hr
    induction hr with
    | refl => exact .refl _
    | step he _ ih => exact .step ((h.edge_iff hu).2 he) (ih (hrange.lt_of_edge he))

theorem findNode_eq (h : g.Extends g') (hrange : g.InRange) {u : SymbolId} (hu : u < g.size) :
    g'.findNode target u = g.findNode target u := by
  rw [Bool.eq_iff_iff, findNode_eq_true_iff, findNode_eq_true_iff]
  refine exists_congr fun w => ?_
  rw [h.reaches_iff hrange hu]
  refine and_congr_right fun hr => ?_
  rw [h.get_eq w (hrange.lt_of_reaches hu hr)]

theorem findExported_eq (h : g.Extends g') (hrange : g.InRange) {u : SymbolId} (hu : u < g.size) :
    g'.findExported target u = g.findExported target u := by
  rw [Bool.eq_iff_iff, findExported_eq_true_iff, findExported_eq_true_iff]
  simp only [← findNode_eq_true_iff, transGen_edge_iff]
  constructor
  · rintro ⟨s, ⟨v, hv, he⟩, hs, hfound⟩
    have hv' := (h.reaches_iff hrange hu).1 hv
    have he' := (h.edge_iff (hrange.lt_of_reaches hu hv')).1 he
    have hlt := hrange.lt_of_edge he'
    rw [h.get_eq s hlt] at hs
    rw [h.findNode_eq hrange hlt] at hfound
    exact ⟨s, ⟨v, hv', he'⟩, hs, hfound⟩
  · rintro ⟨s, ⟨v, hv, he⟩, hs, hfound⟩
    have hlt := hrange.lt_of_edge he
    rw [← h.get_eq s hlt] at hs
    rw [← h.findNode_eq hrange hlt] at hfound
    exact ⟨s, ⟨v, (h.reaches_iff hrange hu).2 hv,
      (h.edge_iff (hrange.lt_of_reaches hu hv)).2 he⟩, hs, hfound⟩

/-- **New symbols that nothing points at export nothing.** -/
theorem isExported_eq (h : g.Extends g') (hrange : g.InRange) (hroot : root < g.size)
    (query : AnalysisOptions) : g'.isExported target query = g.isExported target query := by
  have hmodule : g'.moduleExports?.any (g'.findNode target) =
      g.moduleExports?.any (g.findNode target) := by
    rw [moduleExports?, moduleExports?, h.prop?_eq hroot]
    cases hm : g.prop? root "module" with
    | none => rfl
    | some m =>
        dsimp only
        rw [h.prop?_eq (hrange.lt_size hm)]
        cases he : g.prop? m "exports" with
        | none => rfl
        | some e => exact h.findNode_eq hrange (hrange.lt_size he)
  rw [isExported, isExported, hmodule, h.findExported_eq hrange hroot]

end Extends

end SymbolGraph

/-! ### The last assignment to `module.exports` -/

namespace SymbolGraph

variable {g : SymbolGraph}

/-- Setting `exports` does not redirect `module`, even where `module` is the global scope. -/
theorem moduleExports?_setProp {m : SymbolId} (hm : g.prop? root "module" = some m)
    (hlt : m < g.size) (s : SymbolId) : (g.setProp m "exports" s).moduleExports? = some s := by
  have hmodule : (g.setProp m "exports" s).prop? root "module" = some m := by
    rw [prop?_setProp, if_neg fun hboth => absurd hboth.2 (by decide), hm]
  rw [moduleExports?, hmodule]
  dsimp only
  rw [prop?_setProp, if_pos ⟨⟨rfl, hlt⟩, rfl⟩]

theorem isExported_iff_of_moduleExports? {s : SymbolId} (hs : g.moduleExports? = some s)
    (target : NodeId) {query : AnalysisOptions} (hcommonJs : query.commonJs = true)
    (hesm : query.esm = false) :
    g.isExported target query = true ↔ ∃ w, g.Reaches s w ∧ (g.get w).wraps target = true := by
  rw [isExported, hcommonJs, hesm, hs, Bool.true_and, Bool.false_and, Bool.or_false,
    Option.any_some, findNode_eq_true_iff]

end SymbolGraph

/-- The statement `module.exports = value`. -/
def Ast.AssignsModuleExports (ast : Ast) (statement value : NodeId) : Prop :=
  ∃ expression target base property, ast.node statement = .expressionStatement expression ∧
    ast.node expression = .assignment target value ∧
    ast.node target = .member base property false ∧ ast.node base = .identifier "module" ∧
    ast.node property = .identifier "exports"

namespace Resolver

variable {r : Resolver}

theorem resolve_name {id : NodeId} {name : String} (hnode : r.ast.node id = .identifier name)
    (b : Bindings) : r.resolve maxNesting id (some root) {} b = (b.graph.global? name, b) := by
  rw [maxNesting, resolve, resolveNode, hnode]
  exact Prod.ext Option.or_self rfl

/-- A property that is not computed is its own key. -/
theorem memberKey?_name (hkeys : r.keys = .direct) (recur : Resolve) {property : NodeId}
    {name : String} (hnode : r.ast.node property = .identifier name) (scope : Option SymbolId)
    (b : Bindings) : r.memberKey? recur property false scope b = (some name, b) := by
  rw [memberKey?, hkeys, hnode]
  rfl

section moduleExports

variable (hkeys : r.keys = .direct) (hfirst : r.ast.ChildrenFirst) {statement value : NodeId}
  (hid : statement < r.ast.size) (h : r.ast.AssignsModuleExports statement value) (b : Bindings)
include hkeys hfirst hid h

/-- What the statement does, apart from what it reports. -/
theorem assign_moduleExports :
    ∃ d d', r.assign statement b =
      match (b.graph.global? "module").filter fun m => (b.graph.get m).hasMembers with
      | none => b.report d
      | some m =>
          match r.resolve maxNesting value (some root) {} b with
          | (none, c) => c.report d'
          | (some s, c) => c.setProp m "exports" s := by
  obtain ⟨expression, target, base, property, hstatement, hexpression, htarget, hbase, hprop⟩ := h
  refine ⟨.unresolvedTarget target ((r.ast.memberPath? target).getD "<member>"),
    .unresolvedValue target "exports", ?_⟩
  rw [assign_expression hfirst hid hstatement, assign, assignThrough, hexpression]
  dsimp only
  rw [bind, bindWith, htarget]
  dsimp only [Option.getD]
  rw [bindMember, resolve_name hbase]
  dsimp only
  rw [memberKey?_name hkeys _ hprop]
  dsimp only
  cases (b.graph.global? "module").filter fun m => (b.graph.get m).hasMembers with
  | none => rfl
  | some m =>
      dsimp only
      generalize r.resolve maxNesting value (some root) {} b = out
      obtain ⟨s, c⟩ := out
      cases s <;> rfl

end moduleExports

theorem inBounds_assignAll (hfirst : r.ast.ChildrenFirst)
    {nodes : List NodeId} (hnodes : ∀ n ∈ nodes, n < r.ast.size) {b : Bindings}
    (hb : b.InBounds) : (r.assignAll nodes b).InBounds := by
  induction nodes generalizing b with
  | nil => exact hb
  | cons n rest ih =>
      exact ih (fun m hm => hnodes m (List.mem_cons_of_mem n hm))
        (assign_inBounds hfirst hb (hnodes n (List.mem_cons_self ..)))

end Resolver

namespace Analysis

/-- The state in which the assignment pass has come past the given statements. -/
def passed (ast : Ast) (options : AnalysisOptions) (statements : List NodeId) : Bindings :=
  Resolver.assignAll { ast } statements (declared ast options)

section passed

variable {ast : Ast} (options : AnalysisOptions)

theorem passed_append (before after : List NodeId) :
    passed ast options (before ++ after) =
      Resolver.assignAll { ast } after (passed ast options before) :=
  List.foldl_append

variable (hfirst : ast.ChildrenFirst) (hprogram : ast.program < ast.size)
include hfirst hprogram

theorem ofAst_eq_passed {body : List NodeId} (hbody : ast.node ast.program = .program body) :
    ofAst ast options = passed ast options body :=
  Resolver.assign_program (r := { ast }) hfirst hprogram hbody (declared ast options)

theorem statement_lt {body : List NodeId} (hbody : ast.node ast.program = .program body)
    {statement : NodeId} (hs : statement ∈ body) : statement < ast.size :=
  hfirst.lt_size hprogram (by rw [hbody]; exact hs)

theorem inBounds_passed {statements : List NodeId} (hs : ∀ x ∈ statements, x < ast.size) :
    (passed ast options statements).InBounds :=
  Resolver.inBounds_assignAll (r := { ast }) hfirst hs
    (inBounds_declared options hfirst hprogram)

end passed

/-- **The last `module.exports = e` decides the channel through `module.exports`.**  Let the module
end in such a statement, `e` being free of assignments, and take the state before it.  If there
`module` is a symbol with members and `e` resolves to `s`, then `s` becomes what `module.exports`
stands for, and the channel answers exactly what `s` reaches.  If there is no such symbol, or `e`
does not resolve, every query is answered as before the statement. -/
theorem moduleExports_decided_by_last (ast : Ast) (options : AnalysisOptions)
    (hfirst : ast.ChildrenFirst) (hprogram : ast.program < ast.size) (before : List NodeId)
    (last value : NodeId) (hbody : ast.node ast.program = .program (before ++ [last]))
    (hlast : ast.AssignsModuleExports last value)
    (hvalue : ∀ n, ast.Occurs value n → ∀ t v, ast.node n ≠ .assignment t v) :
    (∀ m s, (passed ast options before).graph.global? "module" = some m →
      ((passed ast options before).graph.get m).kind ≠ .literal →
      (Resolver.resolve { ast } maxNesting value (some root) {}
        (passed ast options before)).1 = some s →
      (ofAst ast options).graph.moduleExports? = some s ∧
        ∀ (target : NodeId) (query : AnalysisOptions), query.commonJs = true → query.esm = false →
          ((ofAst ast options).graph.isExported target query = true ↔
            ∃ w, (ofAst ast options).graph.Reaches s w ∧
              ((ofAst ast options).graph.get w).wraps target = true)) ∧
    ((∀ m, (passed ast options before).graph.global? "module" = some m →
        ((passed ast options before).graph.get m).kind = .literal) ∨
      (Resolver.resolve { ast } maxNesting value (some root) {}
        (passed ast options before)).1 = none →
      ∀ (target : NodeId) (query : AnalysisOptions),
        (ofAst ast options).graph.isExported target query =
          (passed ast options before).graph.isExported target query) := by
  have hlt : ∀ x ∈ before ++ [last], x < ast.size := fun x => statement_lt hfirst hprogram hbody
  have hb := inBounds_passed options hfirst hprogram
    fun x hx => hlt x (List.mem_append_left [last] hx)
  have hfinal : ofAst ast options =
      Resolver.assign { ast } last (passed ast options before) :=
    (ofAst_eq_passed options hfirst hprogram hbody).trans (passed_append options before [last])
  rw [hfinal]
  generalize passed ast options before = b at hb ⊢
  obtain ⟨d, d', hassign⟩ :=
    Resolver.assign_moduleExports (r := { ast }) rfl hfirst (hlt last (by simp)) hlast b
  rw [hassign]
  -- Without assignments in it, resolving the value only adds symbols.
  have hextends : b.graph.Extends
      (Resolver.resolve { ast } maxNesting value (some root) {} b).2.graph :=
    (Resolver.resolve_reads { ast } maxNesting hvalue (some root) {} (Nat.le_refl _)).extends_graph
  generalize Resolver.resolve { ast } maxNesting value (some root) {} b = out at hextends ⊢
  obtain ⟨found, c⟩ := out
  constructor
  · intro m s hm hkind hfound
    have hmembers : (b.graph.get m).hasMembers = true := by
      rw [Symbol.hasMembers, bne_iff_ne]
      exact hkind
    have hfilter : (b.graph.global? "module").filter (fun m => (b.graph.get m).hasMembers) =
        some m := by
      rw [hm, Option.filter_some, if_pos hmembers]
    obtain rfl : found = some s := hfound
    rw [hfilter]
    dsimp only
    have hlt : m < c.graph.size := Nat.lt_of_lt_of_le (hb.inRange.lt_size hm) hextends.size_le
    have hmodule : c.graph.prop? root "module" = some m :=
      (hextends.prop?_eq hb.root_lt "module").trans hm
    have hexports : (c.setProp m "exports" s).graph.moduleExports? = some s :=
      SymbolGraph.moduleExports?_setProp hmodule hlt s
    refine ⟨hexports, ?_⟩
    intro target query hcommonJs hesm
    exact SymbolGraph.isExported_iff_of_moduleExports? hexports target hcommonJs hesm
  · intro hfails target query
    cases hfilter : (b.graph.global? "module").filter fun m => (b.graph.get m).hasMembers with
    | none => rfl
    | some m =>
        obtain ⟨hm, hmembers⟩ := Option.filter_eq_some_iff.1 hfilter
        have hnone : found = none := by
          rcases hfails with hliteral | hnone
          · rw [Symbol.hasMembers, hliteral m hm] at hmembers
            contradiction
          · exact hnone
        rw [hnone]
        exact hextends.isExported_eq hb.inRange hb.root_lt query

/-- The module `module = window; const g = () => {}; module.exports = { h: g };`, where `module` has
become the global scope when `module.exports` is assigned. -/
def exportsThroughScope : Ast where
  nodes := ([.identifier "module", .identifier "window", .assignment 0 1, .expressionStatement 2,
    .identifier "g", .arrowFunction, .variableDeclaration .const [⟨4, some 5⟩],
    .identifier "module", .identifier "exports", .member 7 8 false, .identifier "h",
    .identifier "g", .object [⟨10, 11, false⟩], .assignment 9 12, .expressionStatement 13,
    .program [3, 6, 14]].map fun n => ⟨n, ⟨1, 1⟩⟩).toArray
  program := 15

/-- The object becomes what `module.exports` stands for, and the arrow function is exported. -/
theorem exportsThroughScope_decided :
    exportsThroughScope.ChildrenFirst ∧ exportsThroughScope.AssignsModuleExports 14 12 ∧
      (passed exportsThroughScope {} [3, 6]).graph.global? "module" = some root ∧
      (ofAst exportsThroughScope {}).graph.moduleExports? = some 6 ∧
      (ofAst exportsThroughScope {}).graph.isExported 5 .commonJsOnly = true := by
  have hfirst : exportsThroughScope.ChildrenFirst := by
    unfold Ast.ChildrenFirst
    decide
  have hlast : exportsThroughScope.AssignsModuleExports 14 12 :=
    ⟨13, 9, 7, 8, rfl, rfl, rfl, rfl, rfl⟩
  have hvalue : ∀ n, exportsThroughScope.Occurs 12 n →
      ∀ t v, exportsThroughScope.node n ≠ .assignment t v := by
    intro n hn
    have hmem : n ∈ [12, 10, 11] := hn.mem_of_closed (by decide) (by decide)
    simp only [List.mem_cons, List.not_mem_nil, or_false] at hmem
    rcases hmem with rfl | rfl | rfl <;> exact nofun
  have hmodule : (passed exportsThroughScope {} [3, 6]).graph.global? "module" = some root := by
    decide +kernel
  obtain ⟨hstored, hexported⟩ := (moduleExports_decided_by_last exportsThroughScope {} hfirst
    (by decide) [3, 6] 14 12 rfl hlast hvalue).1 root 6 hmodule (by decide +kernel)
    (by decide +kernel)
  refine ⟨hfirst, hlast, hmodule, hstored, (hexported 5 .commonJsOnly rfl rfl).2 ⟨4, ?_, ?_⟩⟩
  · have hedge : 4 ∈ (ofAst exportsThroughScope {}).graph.members 6 := by decide +kernel
    exact .step (SymbolGraph.edge_iff.2 hedge) (.refl 4)
  · decide +kernel

end Analysis

end ExportSurface

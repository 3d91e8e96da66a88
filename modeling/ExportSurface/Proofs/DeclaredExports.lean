/-
Exports that carry a declaration.

`export function f`, `export const f = …` and `export class C` store a value under a global name and
flag it at once.  What they put on the export surface stays there as long as the name keeps its
value, and statements that do not mention the name cannot change that, with one exception: a store
through a key that is evaluated may set the global.  It takes a literal with the text of the name
and an object that is the global scope, which only the alias `window` gives access to.

Of an exported class the body is stored, with one entry for each static name, so of several methods
with one name the last is exported.

Main definitions:

* `Ast.Declares`, `Ast.ExportsInline`, `Ast.ExportsClass` — declarations, and exports of them;
* `Bindings.Exposes` — a flagged global was made for a node;
* `Analysis.Replaces` — in a run, storing at a target replaces a flagged global.

Main results:

* `SymbolGraph.isExported_eq_false_of_closed` — a closed set of symbols shows that a node is not
  exported;
* `Analysis.exposes_ofAst` — what keeps a flagged global;
* `Analysis.isExported_of_exportsInline` — **an inline export lasts** while nothing mentions its
  name;
* `Analysis.isExported_of_exportsClass` — **the methods of an exported class are exported**.
-/

import ExportSurface.Proofs.Evaluations
import ExportSurface.Proofs.Footprint

set_option autoImplicit false

namespace ExportSurface

open SymbolGraph (root)

/-! ### Answers -/

namespace SymbolGraph

variable {g : SymbolGraph} {target : NodeId}

/-- What a flagged global reaches is exported. -/
theorem isExported_of_global {name : String} {s w : SymbolId} {query : AnalysisOptions}
    (hroot : (g.get root).kind ≠ .literal) (hname : g.prop? root name = some s)
    (hflag : (g.get s).exported = true) (hw : g.Reaches s w)
    (hwraps : (g.get w).wraps target = true) (hesm : query.esm = true) :
    g.isExported target query = true := by
  have hedge : g.Edge root s := ⟨hroot, name, hname⟩
  have hfound : g.findExported target root = true :=
    findExported_eq_true_iff.2 ⟨s, .single hedge, hflag, w, hw, hwraps⟩
  rw [isExported, hesm, hfound, Bool.true_and, Bool.or_true]

section closed

variable {symbols : List SymbolId} (hclosed : ∀ u ∈ symbols, ∀ v ∈ g.members u, v ∈ symbols)
include hclosed

theorem mem_of_reaches {u v : SymbolId} (hu : u ∈ symbols) (h : g.Reaches u v) : v ∈ symbols := by
  induction h with
  | refl => exact hu
  | step he _ ih => exact ih (hclosed _ hu _ (edge_iff.1 he))

variable (symbols) in
/-- If symbols that are closed under member access hold both starting points, and none of them was
made for a node, then the node is not exported. -/
theorem isExported_eq_false_of_closed (hroot : root ∈ symbols)
    (hexports : ∀ e ∈ g.moduleExports?, e ∈ symbols)
    (hwraps : ∀ u ∈ symbols, (g.get u).wraps target = false) (query : AnalysisOptions) :
    g.isExported target query = false := by
  have hunreached : ∀ u ∈ symbols, ∀ w, g.Reaches u w → (g.get w).wraps target ≠ true := by
    intro u hu w hw
    rw [hwraps w (mem_of_reaches hclosed hu hw)]
    exact Bool.false_ne_true
  have hmodule : g.moduleExports?.any (g.findNode target) = false := by
    rw [Bool.eq_false_iff, ne_eq, Option.any_eq_true]
    rintro ⟨e, he, hfound⟩
    obtain ⟨w, hw, hfound⟩ := findNode_eq_true_iff.1 hfound
    exact hunreached e (hexports e he) w hw hfound
  have hglobal : g.findExported target root = false := by
    rw [Bool.eq_false_iff]
    intro hfound
    obtain ⟨s, hs, -, w, hw, hfound⟩ := findExported_eq_true_iff.1 hfound
    obtain ⟨v, hv, he⟩ := transGen_edge_iff.1 hs
    exact hunreached s (hclosed v (mem_of_reaches hclosed hroot hv) s (edge_iff.1 he)) w hw hfound
  rw [isExported, hmodule, hglobal, Bool.and_false, Bool.and_false, Bool.or_false]

end closed

end SymbolGraph

/-- A property of the nodes of a closed list holds of all that occurs in them. -/
theorem Ast.Occurs.forall_of_closed {ast : Ast} {P : NodeId → Prop} {wholes : List NodeId}
    (nodes : List NodeId) (hwholes : wholes ⊆ nodes)
    (hclosed : ∀ n ∈ nodes, ∀ p ∈ (ast.node n).references, p ∈ nodes)
    (hnodes : ∀ n ∈ nodes, P n) : ∀ x ∈ wholes, ∀ p, ast.Occurs x p → P p :=
  fun _ hx p hp => hnodes p (hp.mem_of_closed (hwholes hx) hclosed)

/-! ### Flagged globals -/

namespace Bindings

theorem Flagged.lt_size {b : Bindings} {s : SymbolId} (h : b.Flagged s) : s < b.graph.size := by
  rcases Nat.lt_or_ge s b.graph.size with hlt | hge
  · exact hlt
  · rw [Flagged, SymbolGraph.get_of_size_le hge] at h
    contradiction

/-- A flagged global has the name, and was made for the node. -/
def Exposes (b : Bindings) (name : String) (n : NodeId) : Prop :=
  ∃ s, b.graph.prop? root name = some s ∧ b.Flagged s ∧ (b.graph.get s).wraps n = true

variable {b b' : Bindings} {name : String}

/-- A flagged global outlasts what leaves its name alone. -/
theorem Grows.exposes (h : b.Grows b')
    (hname : b'.graph.prop? root name = b.graph.prop? root name) {n : NodeId}
    (hb : b.Exposes name n) : b'.Exposes name n := by
  obtain ⟨s, hs, hflag, hwraps⟩ := hb
  refine ⟨s, hname.trans hs, (h.graph.symbol s hflag.lt_size).keeps_flag hflag, ?_⟩
  rw [h.wraps_eq hflag.lt_size, hwraps]

theorem Exposes.root_lt {n : NodeId} (h : b.Exposes name n) : root < b.graph.size := by
  obtain ⟨s, hs, -⟩ := h
  exact SymbolGraph.lt_size_of_prop? hs

/-- Store a symbol under a global name and flag it. -/
def exportAs (b : Bindings) (name : String) (s : SymbolId) : Bindings :=
  (b.setProp root name s).markExported s

section exportAs

variable (b) (name) (s : SymbolId)

@[simp] theorem exportAs_graph :
    (b.exportAs name s).graph = (b.graph.setProp root name s).markExported s := rfl

theorem prop?_exportAs_root (hroot : root < b.graph.size) :
    (b.exportAs name s).graph.prop? root name = some s := by
  rw [exportAs_graph, SymbolGraph.prop?_markExported, SymbolGraph.prop?_setProp,
    if_pos ⟨⟨rfl, hroot⟩, rfl⟩]

theorem prop?_exportAs_of_ne {id : SymbolId} (hid : id ≠ root) (key : String) :
    (b.exportAs name s).graph.prop? id key = b.graph.prop? id key := by
  rw [exportAs_graph, SymbolGraph.prop?_markExported, SymbolGraph.prop?_setProp,
    if_neg fun hboth => hid hboth.1.1]

variable {s} in
theorem flagged_exportAs (hs : s < b.graph.size) : (b.exportAs name s).Flagged s := by
  have hs' : s < (b.setProp root name s).graph.size := by simpa using hs
  exact (flagged_markExported_iff hs' s).2 (.inr rfl)

@[simp] theorem kind_exportAs (id : SymbolId) :
    ((b.exportAs name s).graph.get id).kind = (b.graph.get id).kind := by
  rw [exportAs_graph, SymbolGraph.kind_markExported, SymbolGraph.kind_setProp]

@[simp] theorem wraps_exportAs (id : SymbolId) (n : NodeId) :
    ((b.exportAs name s).graph.get id).wraps n = (b.graph.get id).wraps n := by
  rw [exportAs_graph, SymbolGraph.wraps_markExported, SymbolGraph.wraps_setProp]

end exportAs

/-- The symbol that is made for a node lasts. -/
theorem Grows.wraps_new {n : NodeId} (h : (b.alloc (.object (some n))).2.Grows b') :
    b.graph.size < b'.graph.size ∧ (b'.graph.get b.graph.size).kind = .object ∧
      (b'.graph.get b.graph.size).wraps n = true := by
  have hlt : b.graph.size < (b.alloc (.object (some n))).2.graph.size := by simp
  have hget : (b.alloc (.object (some n))).2.graph.get b.graph.size = .object (some n) := by
    rw [alloc_graph, SymbolGraph.get_alloc, if_pos rfl]
  refine ⟨Nat.lt_of_lt_of_le hlt h.size_le, ?_, ?_⟩
  · rw [h.kind_eq hlt, hget]
    rfl
  · rw [h.wraps_eq hlt, hget, Symbol.wraps]
    simp [Symbol.object]

end Bindings

/-! ### Declarations -/

namespace Ast

/-- A declaration of one name and the node that it stores: a function stores itself, a class its
body, a variable its initial value. -/
inductive Declares (ast : Ast) (declaration : NodeId) (name : String) : NodeId → Prop where
  | functionDeclaration {id : NodeId} : ast.node declaration = .functionDeclaration (some id) →
      ast.node id = .identifier name → Declares ast declaration name declaration
  | classDeclaration {id body : NodeId} : ast.node declaration = .classDeclaration (some id) body →
      ast.node id = .identifier name → Declares ast declaration name body
  | variableDeclaration {kind : DeclarationKind} {id value : NodeId} :
      ast.node declaration = .variableDeclaration kind [⟨id, some value⟩] →
      ast.node id = .identifier name → Declares ast declaration name value

end Ast

/-- A function or an object literal. -/
def Node.isValue : Node → Bool
  | .functionDeclaration _ | .functionExpression _ | .arrowFunction | .object _ => true
  | _ => false

namespace Resolver

variable {r : Resolver} {declaration value : NodeId} {name : String} {s : SymbolId}
  {b c : Bindings}

theorem bindName_resolved {recur : Resolve} {scope : SymbolId}
    (hvalue : recur value (some scope) {} b = (some s, c)) (target : NodeId) :
    bindName recur target name (some value) scope b = (some s, c.setProp scope name s) := by
  rw [bindName, hvalue]

section named

variable {id : NodeId} (hid : r.ast.node id = .identifier name)
include hid

/-- Binding at a function declaration stores the function, whatever value is given. -/
theorem bind_function (hnode : r.ast.node declaration = .functionDeclaration (some id))
    (hvalue : r.resolve maxNesting declaration (some root) {} b = (some s, c))
    (given : Option NodeId) (scope : Option SymbolId) :
    r.bind maxNesting declaration given scope b = (some s, c.setProp root name s) := by
  rw [bind, bindWith, hnode]
  dsimp only
  rw [hid]
  exact bindName_resolved hvalue id

/-- Binding at a class declaration stores the class body. -/
theorem bind_class {body : NodeId}
    (hnode : r.ast.node declaration = .classDeclaration (some id) body)
    (hvalue : r.resolve maxNesting body (some root) {} b = (some s, c))
    (given : Option NodeId) (scope : Option SymbolId) :
    r.bind maxNesting declaration given scope b = (some s, c.setProp root name s) := by
  rw [bind, bindWith, hnode]
  dsimp only
  rw [hid]
  exact bindName_resolved hvalue id

/-- Binding at a name stores the value among the globals. -/
theorem bind_identifier {scope : Option SymbolId} (hscope : scope.getD root = root)
    (hvalue : r.resolve maxNesting value (some root) {} b = (some s, c)) :
    r.bind maxNesting id (some value) scope b = (some s, c.setProp root name s) := by
  rw [bind, bindWith, hid]
  dsimp only
  rw [hscope]
  exact bindName_resolved hvalue id

theorem exportDefault_class {body : NodeId}
    (hnode : r.ast.node declaration = .classDeclaration (some id) body)
    (hvalue : r.resolve maxNesting body (some root) {} b = (some s, c)) :
    r.exportDefault declaration b = c.exportAs name s := by
  rw [exportDefault, bind_class hid hnode hvalue]
  rfl

end named

/-- The export of a declaration stores its value under the name and flags it. -/
theorem exportDeclaration_eq (h : r.ast.Declares declaration name value)
    (hvalue : r.resolve maxNesting value (some root) {} b = (some s, c)) :
    r.exportDeclaration declaration b = c.exportAs name s := by
  rw [exportDeclaration]
  cases h with
  | functionDeclaration hnode hid =>
      rw [hnode]
      dsimp only
      rw [bind_function hid hnode hvalue]
      rfl
  | classDeclaration hnode hid =>
      rw [hnode]
      dsimp only
      rw [bind_class hid hnode hvalue]
      rfl
  | variableDeclaration hnode hid =>
      rw [hnode]
      dsimp only [bindDeclarators]
      rw [bind_identifier hid rfl hvalue]
      rfl

/-- A function or an object literal resolves to a new symbol that is made for it. -/
theorem resolve_value (h : (r.ast.node value).isValue = true) (b : Bindings) :
    ∃ c, r.resolve maxNesting value (some root) {} b = (some b.graph.size, c) ∧
      b.graph.size < c.graph.size ∧ (c.graph.get b.graph.size).wraps value = true := by
  -- All values are made first and filled then, a function with its prototype only.
  suffices hmade : ∃ c, r.resolve maxNesting value (some root) {} b = (some b.graph.size, c) ∧
      (b.alloc (.object (some value))).2.Grows c by
    obtain ⟨c, hresolve, hgrows⟩ := hmade
    obtain ⟨hsize, -, hwraps⟩ := hgrows.wraps_new
    exact ⟨c, hresolve, hsize, hwraps⟩
  have hfunction : (b.alloc (.object (some value))).2.Grows (functionSymbol value b).2 :=
    (Bindings.Grows.alloc ..).trans (.setProp ..)
  rw [maxNesting, resolve, resolveNode]
  cases hnode : r.ast.node value with
  | functionDeclaration _ => exact ⟨_, rfl, hfunction⟩
  | functionExpression _ => exact ⟨_, rfl, hfunction⟩
  | arrowFunction => exact ⟨_, rfl, hfunction⟩
  | object properties => exact ⟨_, rfl, addProperties_grows ..⟩
  | _ => simp [hnode, Node.isValue] at h

end Resolver

/-! ### What lasts -/

namespace Analysis

theorem lacks_start (options : AnalysisOptions) (key : String) : (start options).Lacks key := by
  intro s hs
  rw [start, SymbolGraph.key?_seed] at hs
  contradiction

section states

variable {ast : Ast} (options : AnalysisOptions) (statements : List NodeId)

theorem root_kind_passed : ((passed ast options statements).graph.get root).kind ≠ .literal := by
  have hstart := hoisting_start ast options
  have hmembers := hstart.hasMembers root
  rw [Symbol.hasMembers, bne_iff_ne] at hmembers
  have hgrows : (start options).Grows (passed ast options statements) :=
    (Resolver.declareThrough_grows ..).trans (Resolver.assignAll_grows ..)
  rw [hgrows.kind_eq hstart.inBounds.root_lt]
  exact hmembers

/-- Without the alias `window` no property ever leads to the global scope. -/
theorem hidesRoot_passed (hwindow : options.window = false) :
    (passed ast options statements).HidesRoot := by
  let inv : Invariant { ast } :=
    { allows := fun _ _ => True
      holds := Bindings.HidesRoot
      knows := fun _ s => s ≠ root
      known := Bindings.HidesRoot.knowledge
      asked := fun _ _ => trivial
      changed := fun hway hchange => hchange.hidesRoot hway.holds }
  have hstart : (start options).HidesRoot := by
    refine ⟨(hoisting_start ast options).inBounds.root_lt, fun id key => ?_⟩
    rw [start, SymbolGraph.prop?_seed, hwindow]
    grind [root]
  have hdeclared := (inv.run (t := .declare (ast.program + 1) ast.program) trivial hstart).1
  exact Resolver.holds_assignAll inv hdeclared fun _ _ _ _ => trivial

variable {statements} in
/-- Keys come from the literals of the program. -/
theorem lacks_passed {body : List NodeId} (hbody : ast.node ast.program = .program body)
    (hsub : statements ⊆ body) {key : String}
    (h : ∀ x ∈ body, ∀ p, ast.Occurs x p → (ast.node p).literalKey? ≠ some key) :
    (passed ast options statements).Lacks key := by
  have hliterals : ∀ n, ast.Within [ast.program] n → (ast.node n).literalKey? ≠ some key := by
    rintro n ⟨x, hx, hn⟩
    obtain rfl := List.mem_singleton.1 hx
    rcases hn.eq_or_part with rfl | ⟨p, hp, hn⟩
    · simp [hbody, Node.literalKey?]
    · rw [hbody] at hp
      exact h p hp n hn
  let inv : Invariant { ast } :=
    { allows := fun t _ => t.Within ast [ast.program]
      holds := fun b => b.Lacks key
      knows := fun _ _ => True
      known := .any _
      asked := fun hway hask => hask.within rfl hway.allowed
      changed := fun hway hchange => hchange.lacks hway.allowed hliterals hway.holds }
  have hprogram : ast.Within [ast.program] ast.program := ⟨ast.program, by simp, .here⟩
  have hdeclared := (inv.run (t := .declare (ast.program + 1) ast.program) hprogram
    (lacks_start options key)).1
  refine Resolver.holds_assignAll inv hdeclared ?_
  rintro before x after rfl
  refine hprogram.part ?_
  rw [hbody]
  exact hsub (by simp)

end states

/-- In a run, storing at a target sets the global of the name, which then does not expose the node
any more. -/
def Replaces (ast : Ast) (options : AnalysisOptions) (target : NodeId) (name : String)
    (n : NodeId) : Prop :=
  ∃ levels value scope b found s c, Happens ast options (.bind levels target value scope) b ∧
    Resolver.Addresses { ast } levels target scope b root name found ∧
    Resolver.bind { ast } levels target value scope b = (some s, c) ∧ ¬ c.Exposes name n

/-- **A flagged global outlasts statements that do not mention its name**, if what else holds of the
states rules out that it is replaced under a key that is evaluated. -/
theorem exposes_ofAst {ast : Ast} {options : AnalysisOptions} (hfirst : ast.ChildrenFirst)
    (hprogram : ast.program < ast.size) {before after : List NodeId}
    (hbody : ast.node ast.program = .program (before ++ after)) {name : String} {n : NodeId}
    (hdefault : name ≠ Resolver.defaultExport)
    (hmentions : ∀ p, ast.Within after p → name ∉ (ast.node p).mentioned)
    {holds : Bindings → Prop} {knows : Bindings → SymbolId → Prop} (known : Knowledge holds knows)
    (hchanged : ∀ {t b₀ b b'}, t.Within ast after → Change { ast } knows b₀ b t b' → holds b →
      holds b')
    (hsets : ∀ {t b₀ b}, t.Within ast after → Happens ast options t b₀ → holds b →
      t.SetsGlobal { ast } knows name b₀ b → b.Exposes name n)
    (hb : holds (passed ast options before))
    (hexposed : (passed ast options before).Exposes name n) :
    (ofAst ast options).Exposes name n := by
  let inv : Invariant { ast } :=
    { allows := fun t b => t.Within ast after ∧ t.declares = false ∧ Happens ast options t b
      holds := fun b => holds b ∧ b.Exposes name n
      knows := knows
      known := known.mono fun _ => And.left
      asked := by
        rintro t t' b₀ b ⟨⟨hwithin, hdeclares, hhappens⟩, -, -, -⟩ hask
        exact ⟨hask.within rfl hwithin, hask.declares_eq_false hdeclares,
          hhappens.asked hfirst hask⟩
      changed := by
        rintro t b₀ b b' ⟨⟨hwithin, hdeclares, hhappens⟩, hb₀, hb, -⟩ hchange
        have hb' := hchanged hwithin hchange hb.1
        refine ⟨hb', ?_⟩
        rcases hchange.prop?_root_eq_or_setsGlobal rfl hwithin hdeclares hb₀.2.root_lt hdefault
          hmentions with hname | hset
        · exact hchange.grows.exposes hname hb.2
        · exact hsets hwithin hhappens hb' hset }
  rw [ofAst_eq_passed options hfirst hprogram hbody, passed_append]
  refine (Resolver.holds_assignAll inv ⟨hb, hexposed⟩ ?_).2
  rintro earlier x later rfl
  refine ⟨⟨x, by simp, .here⟩, rfl, .assigning (Nat.lt_succ_self x) ?_⟩
  have hnode : ast.node ast.program = .program ((before ++ earlier) ++ x :: later) := by
    rw [hbody, List.append_assoc]
  rw [← passed_append]
  exact .statement hnode .here

end Analysis

/-! ### Inline exports -/

/-- The export of a declaration that stores a function or an object literal under a name. -/
def Ast.ExportsInline (ast : Ast) (statement : NodeId) (name : String) (value : NodeId) : Prop :=
  ∃ declaration, ast.node statement = .exportNamed (some declaration) [] ∧
    ast.Declares declaration name value ∧ (ast.node value).isValue = true

theorem Resolver.exposes_exportsInline {r : Resolver} (hfirst : r.ast.ChildrenFirst)
    {statement value : NodeId} (hid : statement < r.ast.size)
    {name : String} (h : r.ast.ExportsInline statement name value) {b : Bindings}
    (hroot : root < b.graph.size) : (r.assign statement b).Exposes name value := by
  obtain ⟨declaration, hstatement, hdeclares, hvalue⟩ := h
  obtain ⟨c, hresolve, hsize, hwraps⟩ := resolve_value hvalue b
  have hassign : r.assign statement b = c.exportAs name b.graph.size := by
    rw [assign_exportNamed hfirst hid hstatement]
    exact exportDeclaration_eq hdeclares hresolve
  rw [hassign]
  refine ⟨b.graph.size, ?_, c.flagged_exportAs name hsize, ?_⟩
  · exact c.prop?_exportAs_root name _ (Nat.lt_trans hroot hsize)
  · rw [Bindings.wraps_exportAs, hwraps]

namespace Analysis

/-- **An inline export lasts.**  After `export function f`, or `export` of a variable `f` with a
function or an object literal, let the statements mention `f` neither as an identifier nor as the
text of a literal.  Then the function or object literal is exported, whatever comes before, unless
all of this is the case: the module has the alias `window`, a literal with the text `f` comes
before, and a store through a key that is evaluated replaces the global `f`. -/
theorem isExported_of_exportsInline (ast : Ast) (options : AnalysisOptions)
    (hfirst : ast.ChildrenFirst) (hprogram : ast.program < ast.size) (before after : List NodeId)
    (statement value : NodeId) (name : String)
    (hbody : ast.node ast.program = .program (before ++ statement :: after))
    (hexport : ast.ExportsInline statement name value) (hdefault : name ≠ Resolver.defaultExport)
    (hmentions : ∀ x ∈ after, ∀ p, ast.Occurs x p → name ∉ (ast.node p).mentioned)
    (hkeys : options.window = false ∨
      (∀ x ∈ before ++ [statement], ∀ p, ast.Occurs x p →
        (ast.node p).literalKey? ≠ some name) ∨
      ∀ x ∈ after, ∀ p, ast.Occurs x p → ∀ t ∈ (ast.node p).targets,
        ast.hasDynamicKey t = true → ¬ Replaces ast options t name value)
    (query : AnalysisOptions) (hquery : query.esm = true) :
    (ofAst ast options).graph.isExported value query = true := by
  have hlt : ∀ x ∈ before ++ statement :: after, x < ast.size :=
    fun x => statement_lt hfirst hprogram hbody
  have hbefore := inBounds_passed options hfirst hprogram
    fun x hx => hlt x (List.mem_append_left _ hx)
  have hexposed : (passed ast options (before ++ [statement])).Exposes name value := by
    rw [passed_append]
    exact Resolver.exposes_exportsInline (r := { ast }) hfirst (hlt statement (by simp)) hexport
      hbefore.root_lt
  have hsplit : ast.node ast.program = .program ((before ++ [statement]) ++ after) := by
    rw [hbody, List.append_assoc]
    rfl
  have hmentioned : ∀ p, ast.Within after p → name ∉ (ast.node p).mentioned := by
    rintro p ⟨x, hx, hp⟩
    exact hmentions x hx p hp
  have hliterals : ∀ p, ast.Within after p → (ast.node p).literalKey? ≠ some name :=
    fun p hp hkey => hmentioned p hp (Node.mentioned_of_literalKey? hkey)
  -- The global can only be replaced by a store on the global scope under an evaluated key, and each
  -- of the three conditions rules that out.
  have hlasts : (ofAst ast options).Exposes name value := by
    have hlast := @exposes_ofAst ast options hfirst hprogram _ _ hsplit name value hdefault
      hmentioned
    rcases hkeys with hwindow | hbefore | hreplaces
    · refine hlast Bindings.HidesRoot.knowledge (fun _ hchange => hchange.hidesRoot) ?_
        (hidesRoot_passed options _ hwindow) hexposed
      rintro _ b₀ b - - - ⟨-, -, hroot, -, -⟩
      exact absurd rfl hroot
    · refine hlast (.any _) (fun ht hchange => hchange.lacks ht hliterals) ?_
        (lacks_passed options hbody (by simp) ?_) hexposed
      · rintro _ b₀ b - - hlacks ⟨-, -, -, hyields, -⟩
        exact absurd hlacks hyields
      · intro x hx
        have hcases : x ∈ before ++ [statement] ∨ x ∈ after := by simpa [or_assoc] using hx
        rcases hcases with hx | hx
        · exact hbefore x hx
        · exact fun p hp => hliterals p ⟨x, hx, hp⟩
    · refine @hlast (fun _ => True) _ (.any _) (fun _ _ => id) ?_ trivial hexposed
      rintro _ b₀ b hwithin hhappens - ⟨hdynamic, haddress, -, -, hbind⟩
      obtain ⟨⟨p, ⟨x, hx, hp⟩, ht⟩, -⟩ := hwithin
      by_contra hexposes
      exact hreplaces x hx p hp _ ht hdynamic
        ⟨_, _, _, b₀, _, _, b, hhappens, haddress, hbind, hexposes⟩
  obtain ⟨s, hname, hflag, hwraps⟩ := hlasts
  have hkind : ((ofAst ast options).graph.get root).kind ≠ .literal := by
    rw [ofAst_eq_passed options hfirst hprogram hbody]
    exact root_kind_passed options _
  exact SymbolGraph.isExported_of_global hkind hname hflag (.refl s) hwraps hquery

/-- The module `var f = "1"; export var f = { g: () => {} }; const k = "h"; window[k] = k;`, which
stores under a key that is evaluated. -/
def exportsThenStores : Ast where
  nodes := ([.identifier "f", .literal (.string "1"), .variableDeclaration .var [⟨0, some 1⟩],
    .identifier "f", .identifier "g", .arrowFunction, .object [⟨4, 5, false⟩],
    .variableDeclaration .var [⟨3, some 6⟩], .exportNamed (some 7) [], .identifier "k",
    .literal (.string "h"), .variableDeclaration .const [⟨9, some 10⟩], .identifier "window",
    .identifier "k", .member 12 13 true, .identifier "k", .assignment 14 15,
    .expressionStatement 16, .program [2, 8, 11, 17]].map fun n => ⟨n, ⟨1, 1⟩⟩).toArray
  program := 18

/-- The module `const k = "f"; export function f() {} window[k] = "g";`. -/
def exportsThenReplaces : Ast where
  nodes := ([.identifier "k", .literal (.string "f"), .variableDeclaration .const [⟨0, some 1⟩],
    .identifier "f", .functionDeclaration (some 3), .exportNamed (some 4) [],
    .identifier "window", .identifier "k", .member 6 7 true, .literal (.string "g"),
    .assignment 8 9, .expressionStatement 10, .program [2, 5, 11]].map
      fun n => ⟨n, ⟨1, 1⟩⟩).toArray
  program := 12

/-- The module `const k = "f"; export function f() {} ({})[k] = "g";`. -/
def exportsThenFills : Ast where
  nodes := ([.identifier "k", .literal (.string "f"), .variableDeclaration .const [⟨0, some 1⟩],
    .identifier "f", .functionDeclaration (some 3), .exportNamed (some 4) [],
    .object [], .identifier "k", .member 6 7 true, .literal (.string "g"),
    .assignment 8 9, .expressionStatement 10, .program [2, 5, 11]].map
      fun n => ⟨n, ⟨1, 1⟩⟩).toArray
  program := 12

/-- The object that is filled is new, so it is not the global scope. -/
theorem exportsThenFills_not_replaces : ¬ Replaces exportsThenFills {} 8 "f" 4 := by
  rintro ⟨levels, value, scope, b, found, s, c, hhappens, haddress, -⟩
  have hroot : root < b.graph.size :=
    Nat.lt_of_lt_of_le (by decide) hhappens.start_grows.size_le
  generalize howner : root = owner at haddress
  cases haddress with
  | name hnode | functionName hnode _ | className hnode _ => cases hnode
  | member hnode hbase _ _ =>
      cases hnode
      cases levels with
      | zero => cases hbase
      | succ levels =>
          refine Nat.ne_of_lt hroot (howner.trans ?_)
          exact (Option.some.inj (congrArg Prod.fst hbase)).symm

/-- The first module stores `h`, the second has no alias of the globals if it is bound without one,
and the third stores in an object of its own: the export is reported in all of them. -/
theorem exportsThenStores_exported :
    (exportsThenStores.ChildrenFirst ∧ exportsThenStores.ExportsInline 8 "f" 6 ∧
      exportsThenStores.hasDynamicKey 14 = true ∧
      (ofAst exportsThenStores {}).graph.global? "h" = some 10 ∧
      (ofAst exportsThenStores {}).graph.isExported 6 .esmOnly = true) ∧
    (exportsThenReplaces.ChildrenFirst ∧ exportsThenReplaces.ExportsInline 5 "f" 4 ∧
      (ofAst exportsThenReplaces { window := false }).graph.isExported 4 .esmOnly = true) ∧
    exportsThenFills.ChildrenFirst ∧ exportsThenFills.ExportsInline 5 "f" 4 ∧
      exportsThenFills.hasDynamicKey 8 = true ∧
      (ofAst exportsThenFills {}).graph.isExported 4 .esmOnly = true := by
  have hfirst : exportsThenStores.ChildrenFirst ∧ exportsThenReplaces.ChildrenFirst ∧
      exportsThenFills.ChildrenFirst := by
    unfold Ast.ChildrenFirst
    decide
  have hstores : exportsThenStores.ExportsInline 8 "f" 6 :=
    ⟨7, rfl, .variableDeclaration rfl rfl, rfl⟩
  have hreplaces : exportsThenReplaces.ExportsInline 5 "f" 4 :=
    ⟨4, rfl, .functionDeclaration rfl rfl, rfl⟩
  have hfills : exportsThenFills.ExportsInline 5 "f" 4 :=
    ⟨4, rfl, .functionDeclaration rfl rfl, rfl⟩
  have hliterals : ∀ x ∈ [2] ++ [8], ∀ p, exportsThenStores.Occurs x p →
      (exportsThenStores.node p).literalKey? ≠ some "f" :=
    Ast.Occurs.forall_of_closed [0, 1, 2, 3, 4, 5, 6, 7, 8] (by decide) (by decide) (by decide)
  have hkept : ∀ x ∈ [11], ∀ p, exportsThenFills.Occurs x p →
      ∀ t ∈ (exportsThenFills.node p).targets, exportsThenFills.hasDynamicKey t = true →
        ¬ Replaces exportsThenFills {} t "f" 4 := by
    intro x hx p hp t ht hdynamic
    have htarget := Ast.Occurs.forall_of_closed
      (P := fun p => ∀ t ∈ (exportsThenFills.node p).targets, t = 8) [6, 7, 8, 9, 10, 11]
      (by decide) (by decide) (by decide) x hx p hp t ht
    exact htarget ▸ exportsThenFills_not_replaces
  refine ⟨⟨hfirst.1, hstores, rfl, by decide +kernel, ?_⟩, ⟨hfirst.2.1, hreplaces, ?_⟩, hfirst.2.2,
    hfills, rfl, ?_⟩
  · exact isExported_of_exportsInline exportsThenStores {} hfirst.1 (by decide) [2] [11, 17] 8 6 "f"
      rfl hstores (by decide)
      (Ast.Occurs.forall_of_closed [9, 10, 11, 12, 13, 14, 15, 16, 17]
        (by decide) (by decide) (by decide))
      (.inr (.inl hliterals)) .esmOnly rfl
  · exact isExported_of_exportsInline exportsThenReplaces { window := false } hfirst.2.1 (by decide)
      [2] [11] 5 4 "f" rfl hreplaces (by decide)
      (Ast.Occurs.forall_of_closed [6, 7, 8, 9, 10, 11] (by decide) (by decide) (by decide))
      (.inl rfl) .esmOnly rfl
  · exact isExported_of_exportsInline exportsThenFills {} hfirst.2.2 (by decide) [2] [11] 5 4 "f"
      rfl hfills (by decide)
      (Ast.Occurs.forall_of_closed [6, 7, 8, 9, 10, 11] (by decide) (by decide) (by decide))
      (.inr (.inr hkept)) .esmOnly rfl

/-- The last statement does not mention `f`, but its key is evaluated to it: the global is replaced,
and no query reports the function. -/
theorem exportsThenReplaces_not_exported :
    exportsThenReplaces.ChildrenFirst ∧ exportsThenReplaces.node 12 = .program ([2] ++ 5 :: [11]) ∧
      exportsThenReplaces.ExportsInline 5 "f" 4 ∧ "f" ≠ Resolver.defaultExport ∧
      (∀ x ∈ [11], ∀ p, exportsThenReplaces.Occurs x p →
        "f" ∉ (exportsThenReplaces.node p).mentioned) ∧
      ∀ query, (ofAst exportsThenReplaces {}).graph.isExported 4 query = false := by
  refine ⟨?_, rfl, ⟨4, rfl, .functionDeclaration rfl rfl, rfl⟩, by decide, ?_, ?_⟩
  · unfold Ast.ChildrenFirst
    decide
  · exact Ast.Occurs.forall_of_closed [6, 7, 8, 9, 10, 11]
      (by decide) (by decide) (by decide)
  · exact SymbolGraph.isExported_eq_false_of_closed [0, 1, 2, 4, 7]
      (by decide +kernel) (by decide) (by decide +kernel) (by decide +kernel)

end Analysis

/-! ### Exported classes -/

/-- The export of a named class, also as the default. -/
def Ast.ExportsClass (ast : Ast) (statement : NodeId) (name : String) (body : NodeId) : Prop :=
  ∃ declaration id, (ast.node statement = .exportNamed (some declaration) [] ∨
      ast.node statement = .exportDefault declaration) ∧
    ast.node declaration = .classDeclaration (some id) body ∧ ast.node id = .identifier name

namespace Resolver

variable {r : Resolver} {body : NodeId} {b : Bindings} {owner : SymbolId} {method : Entry}
  {key : String}

theorem addMethods_append (earlier later : List Entry) :
    r.addMethods owner (earlier ++ later) b =
      r.addMethods owner later (r.addMethods owner earlier b) :=
  List.foldl_append

theorem addMethods_cons_of_none (hkey : r.ast.entryKey? method = none) (rest : List Entry) :
    r.addMethods owner (method :: rest) b = r.addMethods owner rest b := by
  rw [addMethods, List.foldl_cons, hkey]
  rfl

theorem addMethods_cons_of_some (hkey : r.ast.entryKey? method = some key) (rest : List Entry) :
    r.addMethods owner (method :: rest) b =
      r.addMethods owner rest
        ((b.alloc (.object (some method.value))).2.setProp owner key b.graph.size) := by
  rw [addMethods, List.foldl_cons, hkey]
  rfl

/-- Methods with other names leave an entry alone. -/
theorem prop?_addMethods_of_ne {methods : List Entry}
    (h : ∀ m ∈ methods, r.ast.entryKey? m ≠ some key) :
    (r.addMethods owner methods b).graph.prop? owner key = b.graph.prop? owner key := by
  induction methods generalizing b with
  | nil => rfl
  | cons m rest ih =>
      have hrest : ∀ m ∈ rest, r.ast.entryKey? m ≠ some key :=
        fun m hm => h m (List.mem_cons_of_mem _ hm)
      cases hm : r.ast.entryKey? m with
      | none => rw [addMethods_cons_of_none hm, ih hrest]
      | some other =>
          have hne : key ≠ other := by
            rintro rfl
            exact h m (List.mem_cons_self ..) hm
          rw [addMethods_cons_of_some hm, ih hrest, Bindings.setProp_graph,
            SymbolGraph.prop?_setProp, if_neg fun hboth => hne hboth.2, Bindings.alloc_graph,
            SymbolGraph.prop?_alloc b.graph rfl]

/-- A name leads to the last method that has it. -/
theorem exists_prop?_addMethods {earlier later : List Entry}
    (hkey : r.ast.entryKey? method = some key)
    (hlater : ∀ m ∈ later, r.ast.entryKey? m ≠ some key) (howner : owner < b.graph.size) :
    ∃ w, (r.addMethods owner (earlier ++ method :: later) b).graph.prop? owner key = some w ∧
      ((r.addMethods owner (earlier ++ method :: later) b).graph.get w).wraps method.value =
        true := by
  have hsize : owner < (r.addMethods owner earlier b).graph.size :=
    Nat.lt_of_lt_of_le howner (r.addMethods_grows b owner earlier).size_le
  rw [addMethods_append, addMethods_cons_of_some hkey]
  generalize r.addMethods owner earlier b = c at hsize ⊢
  -- From here on the entry can only be lost to a method with the same name.
  have hgrows := (Bindings.Grows.setProp (c.alloc (.object (some method.value))).2 owner key
    c.graph.size).trans (r.addMethods_grows _ owner later)
  obtain ⟨-, -, hwraps⟩ := hgrows.wraps_new
  refine ⟨c.graph.size, ?_, hwraps⟩
  have hsize' : owner < (c.graph.alloc (.object (some method.value))).2.size := by
    rw [SymbolGraph.size_alloc]
    exact Nat.lt_succ_of_lt hsize
  rw [prop?_addMethods_of_ne hlater, Bindings.setProp_graph, SymbolGraph.prop?_setProp,
    Bindings.alloc_graph, if_pos ⟨⟨rfl, hsize'⟩, rfl⟩]

/-- A class body resolves to a new symbol with its methods. -/
theorem resolve_classBody {methods : List Entry} (hbody : r.ast.node body = .classBody methods)
    (b : Bindings) : r.resolve maxNesting body (some root) {} b =
      (some b.graph.size,
        r.addMethods b.graph.size methods (b.alloc (.object (some body))).2) := by
  rw [maxNesting, resolve, resolveNode, hbody]
  rfl

theorem assign_exportsClass (hfirst : r.ast.ChildrenFirst) {statement : NodeId}
    (hid : statement < r.ast.size) {name : String} (h : r.ast.ExportsClass statement name body)
    {methods : List Entry} (hbody : r.ast.node body = .classBody methods) (b : Bindings) :
    r.assign statement b =
      (r.addMethods b.graph.size methods (b.alloc (.object (some body))).2).exportAs name
        b.graph.size := by
  obtain ⟨declaration, id, hstatement, hdeclaration, hname⟩ := h
  rcases hstatement with hnamed | hdefault
  · rw [assign_exportNamed hfirst hid hnamed]
    exact exportDeclaration_eq (.classDeclaration hdeclaration hname) (resolve_classBody hbody b)
  · rw [assign, assignThrough, hdefault]
    exact exportDefault_class hname hdeclaration (resolve_classBody hbody b)

end Resolver

namespace Analysis

/-- **The methods of an exported class are exported.**  If a module ends in the export of a named
class, then every method with a static name is exported that no later method of the class replaces
under the same name. -/
theorem isExported_of_exportsClass (ast : Ast) (options : AnalysisOptions)
    (hfirst : ast.ChildrenFirst) (hprogram : ast.program < ast.size) (before : List NodeId)
    (statement body : NodeId) (name key : String) (earlier later : List Entry) (method : Entry)
    (hprogramBody : ast.node ast.program = .program (before ++ [statement]))
    (hexport : ast.ExportsClass statement name body)
    (hbody : ast.node body = .classBody (earlier ++ method :: later))
    (hkey : ast.entryKey? method = some key)
    (hlater : ∀ m ∈ later, ast.entryKey? m ≠ some key) (query : AnalysisOptions)
    (hquery : query.esm = true) :
    (ofAst ast options).graph.isExported method.value query = true := by
  have hlt : ∀ x ∈ before ++ [statement], x < ast.size :=
    fun x => statement_lt hfirst hprogram hprogramBody
  have hb := inBounds_passed options hfirst hprogram
    fun x hx => hlt x (List.mem_append_left [statement] hx)
  have hroot := @root_kind_passed ast options (before ++ [statement])
  have hfinal : passed ast options (before ++ [statement]) =
      Resolver.assign { ast } statement (passed ast options before) :=
    passed_append options before [statement]
  rw [ofAst_eq_passed options hfirst hprogram hprogramBody]
  rw [hfinal, Resolver.assign_exportsClass (r := { ast }) hfirst (hlt statement (by simp)) hexport
    hbody] at hroot ⊢
  generalize passed ast options before = b at hb hroot ⊢
  have hmade : b.graph.size < (b.alloc (.object (some body))).2.graph.size := by simp
  have hgrows := Resolver.addMethods_grows { ast } (b.alloc (.object (some body))).2 b.graph.size
    (earlier ++ method :: later)
  obtain ⟨hsize, hkind, -⟩ := hgrows.wraps_new
  obtain ⟨w, hw, hwraps⟩ := Resolver.exists_prop?_addMethods (r := { ast }) hkey hlater hmade
  generalize Resolver.addMethods { ast } b.graph.size (earlier ++ method :: later)
    (b.alloc (.object (some body))).2 = c at hroot hsize hkind hw hwraps ⊢
  -- One edge leads from the global to the class body, and one from there to the method.
  have hne : b.graph.size ≠ root := Nat.ne_of_gt hb.root_lt
  have hedge : (c.exportAs name b.graph.size).graph.Edge b.graph.size w := by
    refine ⟨?_, key, ?_⟩
    · rw [Bindings.kind_exportAs, hkind]
      exact nofun
    · rw [c.prop?_exportAs_of_ne name _ hne, hw]
  refine SymbolGraph.isExported_of_global hroot
    (c.prop?_exportAs_root name _ (Nat.lt_trans hb.root_lt hsize))
    (c.flagged_exportAs name hsize) (.step hedge (.refl w)) ?_ hquery
  rw [Bindings.wraps_exportAs, hwraps]

/-- The module `export default class C { m() {} static n() {} m() {} [k]() {} }`. -/
def exportsMethods : Ast where
  nodes := ([.identifier "C", .identifier "m", .functionExpression none, .identifier "n",
    .functionExpression none, .identifier "m", .functionExpression none, .identifier "k",
    .functionExpression none,
    .classBody [⟨1, 2, false⟩, ⟨3, 4, false⟩, ⟨5, 6, false⟩, ⟨7, 8, true⟩],
    .classDeclaration (some 0) 9, .exportDefault 10, .program [11]].map
      fun n => ⟨n, ⟨1, 1⟩⟩).toArray
  program := 12

/-- The second method is exported, and the third, which replaces the first. -/
theorem exportsMethods_exported :
    exportsMethods.ChildrenFirst ∧ exportsMethods.ExportsClass 11 "C" 9 ∧
      (ofAst exportsMethods {}).graph.isExported 4 .esmOnly = true ∧
      (ofAst exportsMethods {}).graph.isExported 6 .esmOnly = true := by
  have hfirst : exportsMethods.ChildrenFirst := by
    unfold Ast.ChildrenFirst
    decide
  have hexport : exportsMethods.ExportsClass 11 "C" 9 := ⟨10, 0, .inr rfl, rfl, rfl⟩
  have hstatic := isExported_of_exportsClass exportsMethods {} hfirst (by decide) [] 11 9 "C" "n"
    [⟨1, 2, false⟩] [⟨5, 6, false⟩, ⟨7, 8, true⟩] ⟨3, 4, false⟩ rfl hexport rfl rfl (by decide)
    .esmOnly rfl
  have hlast := isExported_of_exportsClass exportsMethods {} hfirst (by decide) [] 11 9 "C" "m"
    [⟨1, 2, false⟩, ⟨3, 4, false⟩] [⟨7, 8, true⟩] ⟨5, 6, false⟩ rfl hexport rfl rfl (by decide)
    .esmOnly rfl
  exact ⟨hfirst, hexport, hstatic, hlast⟩

/-- The module `export class C { m() {} m() {} }`. -/
def repeatsMethod : Ast where
  nodes := ([.identifier "C", .identifier "m", .functionExpression none, .identifier "m",
    .functionExpression none, .classBody [⟨1, 2, false⟩, ⟨3, 4, false⟩],
    .classDeclaration (some 0) 5, .exportNamed (some 6) [], .program [7]].map
      fun n => ⟨n, ⟨1, 1⟩⟩).toArray
  program := 8

/-- The module `export default class { m() {} }`. -/
def exportsUnnamedClass : Ast where
  nodes := ([.identifier "m", .functionExpression none, .classBody [⟨0, 1, false⟩],
    .classDeclaration none 2, .exportDefault 3, .program [4]].map fun n => ⟨n, ⟨1, 1⟩⟩).toArray
  program := 5

/-- A method whose name is repeated is not reported, nor is a method of a class without a name, for
which the declaration itself is stored. -/
theorem methods_not_exported :
    (repeatsMethod.ChildrenFirst ∧ repeatsMethod.node 8 = .program [7] ∧
      repeatsMethod.ExportsClass 7 "C" 5 ∧
      repeatsMethod.node 5 = .classBody [⟨1, 2, false⟩, ⟨3, 4, false⟩] ∧
      repeatsMethod.entryKey? ⟨1, 2, false⟩ = some "m" ∧
      ∀ query, (ofAst repeatsMethod {}).graph.isExported 2 query = false) ∧
    exportsUnnamedClass.ChildrenFirst ∧ exportsUnnamedClass.node 5 = .program [4] ∧
      exportsUnnamedClass.node 4 = .exportDefault 3 ∧
      exportsUnnamedClass.node 3 = .classDeclaration none 2 ∧
      exportsUnnamedClass.node 2 = .classBody [⟨0, 1, false⟩] ∧
      exportsUnnamedClass.entryKey? ⟨0, 1, false⟩ = some "m" ∧
      ∀ query, (ofAst exportsUnnamedClass {}).graph.isExported 1 query = false := by
  refine ⟨⟨?_, rfl, ⟨6, 0, .inl rfl, rfl, rfl⟩, rfl, rfl, ?_⟩, ?_, rfl, rfl, rfl, rfl, rfl, ?_⟩
  · unfold Ast.ChildrenFirst
    decide
  · exact SymbolGraph.isExported_eq_false_of_closed [0, 1, 2, 3, 5]
      (by decide +kernel) (by decide) (by decide +kernel) (by decide +kernel)
  · unfold Ast.ChildrenFirst
    decide
  · exact SymbolGraph.isExported_eq_false_of_closed [0, 1, 2, 3, 4]
      (by decide +kernel) (by decide) (by decide +kernel) (by decide +kernel)

end Analysis

end ExportSurface

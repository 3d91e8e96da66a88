/-
Which nodes the symbols of a module are made for.

A node is exported only if a search comes to an object that was made for it.  So what can be
exported at all is decided by where objects are made: each one is made while some node is resolved,
for that node or, in a class body, for the value of a method.  Which nodes are resolved is read off
the tree.  Statements are passed over and not resolved themselves, except for a function that is
declared, and an exported declaration is resolved only if it cannot be bound; a named class always
can be.

This is an invariant of both passes, for any set of nodes that contains what is resolved and any set
that contains what objects are made for.

Main definitions:

* `Bindings.MadeFor` — objects were made for nodes of a set only;
* `Ast.Sources` — a set of nodes that contains what is resolved, and one that contains what objects
  are made for;
* `Task.ResolvesIn` — a task that resolves nodes of the set only;
* `Ast.Exportable` — the nodes that objects are made for at all;
* `Ast.OnlyStatement` — a node is referred to as a statement or as an exported declaration only.

Main results:

* `Asks.resolvesIn`, `Change.madeFor` — **nothing else is resolved, and objects are made for nothing
  else**;
* `Resolver.bindModule_madeFor` — both passes make objects for nodes of the set only;
* `Analysis.isExported_exportable` — **only functions, classes, class bodies, object literals and
  the values of methods are ever exported**;
* `Analysis.class_never_exported` — **a named class is never exported itself**.
-/

import ExportSurface.Proofs.DeclaredExports

set_option autoImplicit false

namespace ExportSurface

open SymbolGraph (root)

/-! ### What objects are made for -/

/-- Every object that was made for a node was made for a node of the set. -/
def Bindings.MadeFor (W : NodeId → Prop) (b : Bindings) : Prop :=
  ∀ s n, (b.graph.get s).wraps n = true → W n

namespace Bindings.MadeFor

variable {W : NodeId → Prop} {b : Bindings}

theorem report (h : b.MadeFor W) (d : Diagnostic) : (b.report d).MadeFor W := h

theorem alloc (h : b.MadeFor W) {new : Symbol} (hnew : ∀ n, new.wraps n = true → W n) :
    (b.alloc new).2.MadeFor W := by
  intro s n hs
  rw [alloc_graph, SymbolGraph.get_alloc] at hs
  split at hs
  · exact hnew n hs
  · exact h s n hs

theorem alloc_object (h : b.MadeFor W) {n : NodeId} (hn : W n) :
    (b.alloc (.object (some n))).2.MadeFor W := by
  refine h.alloc ?_
  intro m hm
  obtain rfl : n = m := by simpa [Symbol.wraps, Symbol.object] using hm
  exact hn

/-- Placeholders, literals and objects of their own are made for no node. -/
theorem alloc_other (h : b.MadeFor W) {new : Symbol} (hnew : ∀ n, new.wraps n = false) :
    (b.alloc new).2.MadeFor W :=
  h.alloc fun n hn => absurd (hnew n) (by simp [hn])

theorem setProp (h : b.MadeFor W) {id : SymbolId} {key : String} {t : SymbolId} :
    (b.setProp id key t).MadeFor W := by
  intro s n hs
  exact h s n (by simpa using hs)

theorem markExported (h : b.MadeFor W) {id : SymbolId} : (b.markExported id).MadeFor W := by
  intro s n hs
  exact h s n (by simpa using hs)

end Bindings.MadeFor

/-! ### What is resolved -/

/-- Are the parts of the node passed over as statements, or exported? -/
def Node.holdsStatements : Node → Bool
  | .program _ | .exportDefault _ | .exportNamed _ _ => true
  | _ => false

namespace Ast

/-- A class declaration with a name and a class body. -/
def NamedClass (ast : Ast) (c : NodeId) : Prop :=
  ∃ id body name methods, ast.node c = .classDeclaration (some id) body ∧
    ast.node id = .identifier name ∧ ast.node body = .classBody methods

/-- The set `S` contains the nodes that are resolved while the tree is bound, and `W` those that
objects are made for when nodes of `S` are resolved. -/
structure Sources (ast : Ast) (S W : NodeId → Prop) : Prop where
  part : ∀ n p, (ast.node n).holdsStatements = false → p ∈ (ast.node n).references → S p
  function : ∀ n name, ast.node n = .functionDeclaration name → S n
  exported : ∀ n d, (ast.node n = .exportDefault d ∨
    ∃ specifiers, ast.node n = .exportNamed (some d) specifiers) → S d ∨ ast.NamedClass d
  object : ∀ n, S n → (ast.node n).denotesObject = true → W n
  method : ∀ body methods m key, ast.node body = .classBody methods → m ∈ methods →
    ast.entryKey? m = some key → W m.value

end Ast

/-! ### What is performed -/

/-- A task that resolves nodes of the set only.  A named class may be bound to itself, since it is
its body that is resolved then. -/
def Task.ResolvesIn (ast : Ast) (S : NodeId → Prop) : Task → Prop
  | resolve _ id _ _ => S id
  | bind _ target value _ => ast.NamedClass target ∨ ∀ v, value = some v → S v
  | declare _ _ | assign _ _ => True

section tasks

variable {r : Resolver} {S W : NodeId → Prop} (hsources : r.ast.Sources S W) {b₀ b b' : Bindings}
  {t t' : Task}
include hsources

/-- The initial value of a variable is resolved. -/
theorem Ast.Sources.init {n : NodeId} {kind : DeclarationKind} {before after : List Declarator}
    {d : Declarator} (hnode : r.ast.node n = .variableDeclaration kind (before ++ d :: after))
    (v : NodeId) (hv : d.init = some v) : S v := by
  refine hsources.part n v (by simp [hnode, Node.holdsStatements]) ?_
  rw [hnode]
  exact List.mem_flatMap.2 ⟨d, by simp, by simp [hv]⟩

/-- An exported declaration is bound to itself. -/
theorem Ast.Sources.resolvesIn_self {n d : NodeId} (h : r.ast.node n = .exportDefault d ∨
      ∃ specifiers, r.ast.node n = .exportNamed (some d) specifiers) (levels : Nat)
    (scope : Option SymbolId) : (Task.bind levels d (some d) scope).ResolvesIn r.ast S := by
  rcases hsources.exported n d h with hd | hclass
  · refine .inr ?_
    rintro v ⟨rfl⟩
    exact hd
  · exact .inl hclass

/-- **What a task asks for resolves nodes of the set only.** -/
theorem Asks.resolvesIn (h : Asks r b₀ t t' b) (ht : t.ResolvesIn r.ast S) :
    t'.ResolvesIn r.ast S := by
  have hpart : ∀ {n p : NodeId} {node : Node}, r.ast.node n = node →
      node.holdsStatements = false → p ∈ node.references → S p := by
    rintro n p node rfl hflat hp
    exact hsources.part n p hflat hp
  -- Only a class can be bound without its value.
  have hvalue : ∀ {target : NodeId} {value : Option NodeId},
      r.ast.NamedClass target ∨ (∀ v, value = some v → S v) →
      (∀ id body, r.ast.node target ≠ .classDeclaration (some id) body) →
      ∀ v, value = some v → S v := by
    rintro target value (⟨id, body, -, -, hclass, -⟩ | hvalue) hne v hv
    · exact absurd hclass (hne id body)
    · exact hvalue v hv
  cases h with
  | base hnode | key hnode _ | entry hnode _ | classBody hnode _ | targetBase hnode
  | targetKey hnode _ | source hnode => exact hpart hnode rfl (by simp [Node.references])
  | assignment hnode | stored hnode | classDeclaration hnode =>
      refine .inr ?_
      rintro v ⟨rfl⟩
      exact hpart hnode rfl (by simp [Node.references])
  | function hnode _ => exact hsources.function _ _ hnode
  | named hnode | member hnode _ _ _ => exact hvalue ht (by simp [hnode]) _ rfl
  | declareStatement _ | declareExpression _ | declareExported _ | statement _ | expression _
  | specifier _ => exact trivial
  | hoisted _ => exact .inr (by simp)
  | declarator hnode | exportedDeclarator _ hnode => exact .inr (hsources.init hnode)
  | functionDeclaration hnode _ =>
      refine .inr ?_
      rintro v ⟨rfl⟩
      exact hsources.function _ _ hnode
  | exportedDefault hnode => exact hsources.resolvesIn_self (.inl hnode) _ _
  | exported hnode _ => exact hsources.resolvesIn_self (.inr ⟨_, hnode⟩) _ _
  | @defaultValue _ id x _ hnode hout =>
      rcases hsources.exported id x (.inl hnode) with
        hx | ⟨_, body, name, methods, hclass, hid, hbody⟩
      · exact hx
      · -- A class body always resolves, and so a named class is always bound.
        rw [Resolver.bind_class hid hclass (Resolver.resolve_classBody hbody b₀)] at hout
        cases hout

/-- **An object is made for a node of the set**, if at all. -/
theorem Change.madeFor {knows : Bindings → SymbolId → Prop} (h : Change r knows b₀ b t b')
    (ht : t.ResolvesIn r.ast S) (hb : b.MadeFor W) : b'.MadeFor W := by
  cases h with
  | limit | report _ _ => exact hb.report _
  | alloc hmakes =>
      cases hmakes with
      | object hnode => exact hb.alloc_object (hsources.object _ ht hnode)
      | method hbody hm hkey => exact hb.alloc_object (hsources.method _ _ _ _ hbody hm hkey)
      | _ => exact hb.alloc_other fun _ => rfl
  | fill _ _ _ | create _ _ _ _ _ _ _ | store _ _ _ _ _ _ | window _ _ _ _ _ _
  | storeDefault _ _ => exact hb.setProp
  | mark _ => exact hb.markExported

/-- **Binding a module makes objects for nodes of the set only.** -/
theorem Resolver.bindModule_madeFor (hb : b.MadeFor W) : (r.bindModule b).MadeFor W := by
  let inv : Invariant r :=
    { allows := fun t _ => t.ResolvesIn r.ast S
      holds := Bindings.MadeFor W
      knows := fun _ _ => True
      known := .any _
      asked := fun hway hask => hask.resolvesIn hsources hway.allowed
      changed := fun hway hchange => hchange.madeFor hsources hway.allowed hway.holds }
  have hdeclared := (inv.run (t := .declare (r.ast.program + 1) r.ast.program) trivial hb).1
  exact (inv.run (t := .assign (r.ast.program + 1) r.ast.program) trivial hdeclared).1

end tasks

/-! ### What can be exported -/

/-- Whatever is exported, an object was made for it. -/
theorem SymbolGraph.exists_wraps_of_isExported {g : SymbolGraph} {n : NodeId}
    {query : AnalysisOptions} (h : g.isExported n query = true) :
    ∃ s, (g.get s).wraps n = true := by
  rw [isExported, Bool.or_eq_true, Bool.and_eq_true, Bool.and_eq_true] at h
  rcases h with ⟨-, hmodule⟩ | ⟨-, hflagged⟩
  · obtain ⟨s, -, hs⟩ := (Option.any_eq_true _ _).1 hmodule
    obtain ⟨w, -, hw⟩ := findNode_eq_true_iff.1 hs
    exact ⟨w, hw⟩
  · obtain ⟨-, -, -, w, -, hw⟩ := findExported_eq_true_iff.1 hflagged
    exact ⟨w, hw⟩

/-- The node is in the arena, and is a function, a class, a class body or an object literal, or the
value of a method with a static name. -/
def Ast.Exportable (ast : Ast) (n : NodeId) : Prop :=
  n < ast.size ∧ ((ast.node n).denotesObject = true ∨
    ∃ body methods m key, body < ast.size ∧ ast.node body = .classBody methods ∧ m ∈ methods ∧
      ast.entryKey? m = some key ∧ m.value = n)

theorem Ast.sources_exportable {ast : Ast} (hfirst : ast.ChildrenFirst) :
    ast.Sources (fun _ => True) ast.Exportable where
  part := fun _ _ _ _ => trivial
  function := fun _ _ _ => trivial
  exported := fun _ _ _ => .inl trivial
  object := by
    intro n _ hn
    refine ⟨lt_size_of_node_ne ?_, .inl hn⟩
    intro hnode
    simp [hnode, Node.denotesObject] at hn
  method := by
    intro body methods m key hbody hm hkey
    have hlt : body < ast.size := lt_size_of_node_ne (by simp [hbody])
    have hvalue : m.value ∈ (ast.node body).references := by
      rw [hbody]
      exact List.mem_flatMap.2 ⟨m, hm, by simp⟩
    exact ⟨hfirst.lt_size hlt hvalue, .inr ⟨body, methods, m, key, hlt, hbody, hm, hkey, rfl⟩⟩

namespace Analysis

/-- The symbols that binding starts with are made for no node. -/
theorem start_madeFor (options : AnalysisOptions) (W : NodeId → Prop) :
    (start options).MadeFor W := by
  intro s n hs
  rw [start, SymbolGraph.wraps_seed] at hs
  contradiction

/-- **Only what denotes an object is ever exported.**  An exported node is in the arena, and is a
function, a class declaration, a class body or an object literal, or the value of a method with a
static name. -/
theorem isExported_exportable (ast : Ast) (hfirst : ast.ChildrenFirst) (options : AnalysisOptions)
    (query : AnalysisOptions) (n : NodeId)
    (h : (ofAst ast options).graph.isExported n query = true) : ast.Exportable n := by
  obtain ⟨s, hs⟩ := SymbolGraph.exists_wraps_of_isExported h
  have hmade : (ofAst ast options).MadeFor ast.Exportable :=
    Resolver.bindModule_madeFor (r := { ast }) (Ast.sources_exportable hfirst)
      (start_madeFor options _)
  exact hmade s n hs

/-- The module `export default class C { m(); }`, in which the method has an unsupported value. -/
def exportsSignature : Ast where
  nodes := ([.identifier "C", .identifier "m", .other "TSEmptyBodyFunctionExpression",
    .classBody [⟨1, 2, false⟩], .classDeclaration (some 0) 3, .exportDefault 4, .program [5]].map
      fun n => ⟨n, ⟨1, 1⟩⟩).toArray
  program := 6

/-- The value of the method is exported although no object would be made for it by itself. -/
theorem exportsSignature_exportable :
    exportsSignature.ChildrenFirst ∧ (exportsSignature.node 2).denotesObject = false ∧
      (ofAst exportsSignature {}).graph.isExported 2 {} = true ∧ exportsSignature.Exportable 2 := by
  have hfirst : exportsSignature.ChildrenFirst := by
    unfold Ast.ChildrenFirst
    decide
  -- Symbol 3 is the class body, which the name leads to, and symbol 4 its method.
  have hmethod : (ofAst exportsSignature {}).graph.Edge 3 4 :=
    ⟨by decide +kernel, "m", by decide +kernel⟩
  have hname : (ofAst exportsSignature {}).graph.prop? root "C" = some 3 := by decide +kernel
  have hexported : (ofAst exportsSignature {}).graph.isExported 2 {} = true :=
    SymbolGraph.isExported_of_global (by decide +kernel) hname (by decide +kernel)
      (.step hmethod (.refl 4)) (by decide +kernel) rfl
  exact ⟨hfirst, rfl, hexported, isExported_exportable exportsSignature hfirst {} {} 2 hexported⟩

end Analysis

/-! ### Named classes -/

/-- The node is referred to only as a statement of a program, or as an exported declaration. -/
def Ast.OnlyStatement (ast : Ast) (c : NodeId) : Prop :=
  ∀ n < ast.size, c ∈ (ast.node n).references → (∃ body, ast.node n = .program body) ∨
    ast.node n = .exportDefault c ∨ ∃ specifiers, ast.node n = .exportNamed (some c) specifiers

theorem Ast.OnlyStatement.not_mem {ast : Ast} {c n : NodeId} (h : ast.OnlyStatement c)
    (hn : (ast.node n).holdsStatements = false) : c ∉ (ast.node n).references := by
  intro hc
  have hlt : n < ast.size := by
    refine lt_size_of_node_ne ?_
    intro hnode
    simp [hnode, Node.references] at hc
  rcases h n hlt hc with ⟨body, hnode⟩ | hnode | ⟨specifiers, hnode⟩ <;>
    simp [hnode, Node.holdsStatements] at hn

/-- Everything but a named class is resolved, or has an object made for it. -/
theorem Ast.OnlyStatement.sources {ast : Ast} {c : NodeId} (h : ast.OnlyStatement c)
    (hc : ast.NamedClass c) : ast.Sources (· ≠ c) (· ≠ c) where
  part := by
    rintro n p hn hp rfl
    exact h.not_mem hn hp
  function := by
    rintro n name hnode rfl
    obtain ⟨id, body, -, -, hclass, -⟩ := hc
    cases hnode.symm.trans hclass
  exported := by
    intro n d _
    by_cases hd : d = c
    · exact .inr (hd ▸ hc)
    · exact .inl hd
  object := fun n hn _ => hn
  method := by
    rintro body methods m key hbody hm - rfl
    refine h.not_mem (n := body) (by simp [hbody, Node.holdsStatements]) ?_
    rw [hbody]
    exact List.mem_flatMap.2 ⟨m, hm, by simp⟩

namespace Analysis

/-- **A named class is never exported itself.**  If a class declaration with a name and a class body
is referred to as a statement or as an exported declaration only, then no symbol is ever made for
it, and it is not exported, whatever the module does with the name of the class. -/
theorem class_never_exported (ast : Ast) (options : AnalysisOptions) (c id body : NodeId)
    (name : String) (methods : List Entry) (hclass : ast.node c = .classDeclaration (some id) body)
    (hid : ast.node id = .identifier name) (hbody : ast.node body = .classBody methods)
    (hc : ast.OnlyStatement c) :
    (∀ s, ((ofAst ast options).graph.get s).wraps c = false) ∧
      ∀ query, (ofAst ast options).graph.isExported c query = false := by
  have hnamed : ast.NamedClass c := ⟨id, body, name, methods, hclass, hid, hbody⟩
  have hmade : (ofAst ast options).MadeFor (· ≠ c) :=
    Resolver.bindModule_madeFor (r := { ast }) (hc.sources hnamed) (start_madeFor options _)
  refine ⟨?_, ?_⟩
  · intro s
    rw [Bool.eq_false_iff]
    intro hs
    exact hmade s c hs rfl
  · intro query
    rw [Bool.eq_false_iff]
    intro h
    obtain ⟨s, hs⟩ := SymbolGraph.exists_wraps_of_isExported h
    exact hmade s c hs rfl

/-- The module `export default class C { m() {} } module.exports = C;`. -/
def exportsClassTwice : Ast where
  nodes := ([.identifier "C", .identifier "m", .functionExpression none, .classBody [⟨1, 2, false⟩],
    .classDeclaration (some 0) 3, .exportDefault 4, .identifier "module", .identifier "exports",
    .member 6 7 false, .identifier "C", .assignment 8 9, .expressionStatement 10,
    .program [5, 11]].map fun n => ⟨n, ⟨1, 1⟩⟩).toArray
  program := 12

/-- The class body is exported through both channels, and the class through neither. -/
theorem exportsClassTwice_not_exported :
    exportsClassTwice.OnlyStatement 4 ∧
      (ofAst exportsClassTwice {}).graph.isExported 3 .esmOnly = true ∧
      (ofAst exportsClassTwice {}).graph.isExported 3 .commonJsOnly = true ∧
      (∀ s, ((ofAst exportsClassTwice {}).graph.get s).wraps 4 = false) ∧
      ∀ query, (ofAst exportsClassTwice {}).graph.isExported 4 query = false := by
  have honly : exportsClassTwice.OnlyStatement 4 := by
    intro n hn hc
    have hdefault : ∀ n < exportsClassTwice.size,
        4 ∈ (exportsClassTwice.node n).references → n = 5 := by decide
    obtain rfl := hdefault n hn hc
    exact .inr (.inl rfl)
  have hname : (ofAst exportsClassTwice {}).graph.prop? root "C" = some 3 := by decide +kernel
  have hflagged : (ofAst exportsClassTwice {}).graph.isExported 3 .esmOnly = true :=
    SymbolGraph.isExported_of_global (by decide +kernel) hname (by decide +kernel) (.refl 3)
      (by decide +kernel) rfl
  have hmodule : (ofAst exportsClassTwice {}).graph.isExported 3 .commonJsOnly = true :=
    (SymbolGraph.isExported_iff_of_moduleExports? (s := 3) (by decide +kernel) 3 rfl rfl).2
      ⟨3, .refl 3, by decide +kernel⟩
  exact ⟨honly, hflagged, hmodule,
    class_never_exported exportsClassTwice {} 4 0 3 "C" [⟨1, 2, false⟩] rfl rfl rfl honly⟩

end Analysis

end ExportSurface

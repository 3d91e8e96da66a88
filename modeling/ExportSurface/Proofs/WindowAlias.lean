/-
`window` stays an alias of the global scope.

The global scope can be reached under other names, and written to through computed keys, chained
assignments and default exports.  Still, a module in which nothing is declared or assigned under the
name `window`, and which has no literal of that text, leaves `window` alone.  The reason is an
invariant about all symbols: a computed key is the text of a literal symbol, and there is never one
with the text `window`.

Main definitions:

* `Ast.SparesWindow` — nothing in a tree names, or spells out, `window`;
* `Bindings.HasWindow` — the invariant;
* `Task.SparesWindow` — a task that leaves `window` alone.

Main results:

* `Asks.sparesWindow`, `Change.hasWindow` — **every part of the binder keeps the alias**;
* `Resolver.resolve_window_eq` — with the alias, `window.n` and `n` denote the same symbol;
* `Analysis.window_survives` — **the alias survives both passes**.
-/

import ExportSurface.Proofs.DeclaredExports

set_option autoImplicit false

namespace ExportSurface

open SymbolGraph (root)

/-! ### The invariant -/

/-- The nodes that name what a node stores or looks up: the targets of assignments and variables,
the names of functions and classes, and the properties of plain member accesses. -/
def Node.naming : Node → List NodeId
  | .assignment target _ => [target]
  | .variableDeclaration _ declarators => declarators.map Declarator.target
  | .functionDeclaration id => id.toList
  | .classDeclaration id _ => id.toList
  | .member _ property false => [property]
  | _ => []

/-- Nothing in the tree names `window`, and no literal spells it out.  It may still be mentioned. -/
def Ast.SparesWindow (ast : Ast) : Prop :=
  ∀ id < ast.size, (∀ t ∈ (ast.node id).naming, ast.identifierName? t ≠ some "window") ∧
    (ast.node id).literalKey? ≠ some "window"

instance (ast : Ast) : Decidable ast.SparesWindow :=
  inferInstanceAs (Decidable (∀ id < ast.size,
    (∀ t ∈ (ast.node id).naming, ast.identifierName? t ≠ some "window") ∧
      (ast.node id).literalKey? ≠ some "window"))

namespace Bindings

/-- `window` is the global scope, which has members, and no symbol yields the key `window`. -/
structure HasWindow (b : Bindings) : Prop where
  window : b.graph.prop? root "window" = some root
  hasMembers : (b.graph.get root).hasMembers = true
  lacks : b.Lacks "window"

namespace HasWindow

variable {b : Bindings}

theorem root_lt (h : HasWindow b) : root < b.graph.size := SymbolGraph.lt_size_of_prop? h.window

theorem report (h : HasWindow b) (d : Diagnostic) : HasWindow (b.report d) :=
  ⟨h.window, h.hasMembers, h.lacks⟩

theorem alloc (h : HasWindow b) {s : Symbol} (hs : s.key? ≠ some "window") :
    HasWindow (b.alloc s).2 := by
  have hroot : (b.graph.alloc s).2.get root = b.graph.get root := by
    rw [SymbolGraph.get_alloc, if_neg (Nat.ne_of_lt h.root_lt)]
  refine ⟨?_, ?_, h.lacks.alloc hs⟩
  · rw [alloc_graph, SymbolGraph.prop?, hroot]
    exact h.window
  · rw [alloc_graph, hroot]
    exact h.hasMembers

/-- A property may be set, unless it is `window` of the global scope; and that may be set to what it
is already. -/
theorem setProp (h : HasWindow b) {id t : SymbolId} {key : String}
    (hset : id = root → key = "window" → t = root) : HasWindow (b.setProp id key t) := by
  refine ⟨?_, ?_, (Lacks.setProp_iff id key t).2 h.lacks⟩
  · rw [setProp_graph, SymbolGraph.prop?_setProp]
    split
    · next hsame => rw [hset hsame.1.1.symm hsame.2.symm]
    · exact h.window
  · rw [setProp_graph, SymbolGraph.hasMembers_setProp]
    exact h.hasMembers

theorem markExported (h : HasWindow b) (id : SymbolId) : HasWindow (b.markExported id) := by
  refine ⟨?_, ?_, h.lacks.markExported id⟩
  · rw [markExported_graph, SymbolGraph.prop?_markExported]
    exact h.window
  · rw [markExported_graph, Symbol.hasMembers, SymbolGraph.kind_markExported]
    exact h.hasMembers

end HasWindow

end Bindings

/-! ### What is stored under the name -/

namespace Ast.SparesWindow

variable {ast : Ast} (h : ast.SparesWindow) {n t : NodeId}
include h

theorem naming {node : Node} (hnode : ast.node n = node) (ht : t ∈ node.naming) :
    ast.node t ≠ .identifier "window" := by
  subst hnode
  have hn : n < ast.size := lt_size_of_node_ne fun hnode => by simp [hnode, Node.naming] at ht
  intro hname
  refine (h n hn).1 t ht ?_
  rw [identifierName?, hname]

theorem literalKey? : (ast.node n).literalKey? ≠ some "window" := by
  intro hkey
  refine (h n (lt_size_of_node_ne fun hnode => ?_)).2 hkey
  simp [hnode, Node.literalKey?] at hkey

/-- Nothing is stored under the name but at the name itself. -/
theorem node_eq_of_stores {b : Bindings} (hb : b.Lacks "window")
    (hstores : ast.Stores b t "window") : ast.node t = .identifier "window" := by
  cases hstores with
  | name hnode => exact hnode
  | functionName hnode hid => exact absurd hid (h.naming hnode (by simp [Node.naming]))
  | className hnode hid => exact absurd hid (h.naming hnode (by simp [Node.naming]))
  | @member base property computed _ hnode hyields =>
      exfalso
      cases hdynamic : ast.isDynamicKey property computed with
      | true =>
          obtain ⟨s, hs⟩ := (yields_of_dynamic hdynamic b _).1 hyields
          exact hb s hs
      | false =>
          rw [yields_of_static hdynamic, staticKey?] at hyields
          rw [isDynamicKey] at hdynamic
          cases hproperty : ast.node property with
          | identifier name =>
              rw [hproperty] at hyields hdynamic
              obtain rfl : computed = false := hdynamic
              cases hyields
              exact h.naming hnode (by simp [Node.naming]) hproperty
          | literal value =>
              rw [hproperty] at hyields
              refine h.literalKey? (n := property) ?_
              rw [hproperty]
              exact hyields
          | _ =>
              rw [hproperty] at hyields
              contradiction

end Ast.SparesWindow

namespace Resolver

variable {r : Resolver} {b c : Bindings} {scope : Option SymbolId} {n : String} {id : NodeId}

theorem resolve_global (hnode : r.ast.node id = .identifier n) (hscope : scope.getD root = root)
    (levels : Nat) (b : Bindings) :
    r.resolve (levels + 1) id scope {} b = (b.graph.prop? root n, b) := by
  rw [resolve, resolveNode, hnode]
  refine Prod.ext ?_ rfl
  change lookup b.graph scope n = _
  rw [lookup, hscope]
  exact Option.or_self

/-- `window` may be bound to itself. -/
theorem bind_window_to_itself (hb : b.HasWindow) {target value : NodeId}
    (htarget : r.ast.node target = .identifier "window")
    (hvalue : r.ast.node value = .identifier "window") (hscope : scope.getD root = root)
    {levels : Nat} {s : SymbolId}
    (hbind : r.bind levels target (some value) scope b = (some s, c)) : s = root := by
  rw [bind, bindWith, htarget] at hbind
  dsimp only at hbind
  rw [hscope, bindName] at hbind
  cases levels with
  | zero => cases hbind
  | succ levels =>
      rw [resolve_global hvalue rfl, hb.window] at hbind
      exact (Option.some.inj (congrArg Prod.fst hbind)).symm

end Resolver

/-! ### The binder keeps the alias -/

/-- A task that leaves `window` alone: it looks names up among the globals, with the default
options, and binds `window` at most to itself. -/
def Task.SparesWindow (ast : Ast) : Task → Prop
  | resolve _ _ scope options => scope.getD root = root ∧ options = {}
  | bind _ target value scope =>
      scope.getD root = root ∧ (ast.node target = .identifier "window" →
        ∃ v, value = some v ∧ ast.node v = .identifier "window")
  | declare _ _ | assign _ _ => True

/-- A part that names something is not `window`. -/
theorem Task.sparesWindow_of_naming {ast : Ast} (hspares : ast.SparesWindow) {n target : NodeId}
    {node : Node} (hnode : ast.node n = node) (htarget : target ∈ node.naming) (levels : Nat)
    (value : Option NodeId) {scope : Option SymbolId} (hscope : scope.getD root = root) :
    (Task.bind levels target value scope).SparesWindow ast :=
  ⟨hscope, fun hname => absurd hname (hspares.naming hnode htarget)⟩

section keeps

variable {r : Resolver} (hspares : r.ast.SparesWindow) (hkeys : r.keys = .direct)
  {b₀ b b' : Bindings} {t t' : Task}
include hspares hkeys

/-- **Whatever is asked for leaves `window` alone as well.** -/
theorem Asks.sparesWindow (h : Asks r b₀ t t' b) (ht : t.SparesWindow r.ast) :
    t'.SparesWindow r.ast := by
  cases h with
  | base _ | entry _ _ => exact ht
  | key _ hkey | targetKey _ hkey => exact ⟨ht.1, (Resolver.keyOptions?_direct hkeys hkey).1⟩
  | assignment hnode =>
      exact Task.sparesWindow_of_naming hspares hnode (by simp [Node.naming]) _ _ ht.1
  | classBody _ _ | function _ _ | defaultValue _ _ | source _ => exact ⟨rfl, rfl⟩
  | named _ | targetBase _ | member _ _ _ _ => exact ⟨ht.1, rfl⟩
  | declareStatement _ | declareExpression _ | declareExported _ | statement _ | expression _
  | specifier _ => exact trivial
  | hoisted hnode | declarator hnode | exportedDeclarator _ hnode | stored hnode
  | functionDeclaration hnode _ | classDeclaration hnode =>
      exact Task.sparesWindow_of_naming hspares hnode (by simp [Node.naming]) _ _ rfl
  | exportedDefault _ | exported _ _ => exact ⟨rfl, fun hname => ⟨_, rfl, hname⟩⟩

omit hkeys in
/-- No key is made of the name. -/
theorem Task.Makes.key?_ne {s : Symbol} (h : t.Makes r.ast s) (ht : t.SparesWindow r.ast) :
    s.key? ≠ some "window" := by
  cases h with
  | name _ hname => simp [ht.2] at hname
  | @literal _ id value _ _ hnode =>
      have hkey := hspares.literalKey? (n := id)
      rwa [hnode] at hkey
  | _ => simp [Symbol.key?, Symbol.object, Symbol.placeholder]

/-- **A change keeps the alias.** -/
theorem Change.hasWindow {knows : Bindings → SymbolId → Prop} (h : Change r knows b₀ b t b')
    (ht : t.SparesWindow r.ast) (hb₀ : b₀.HasWindow) (hb : b.HasWindow) : b'.HasWindow := by
  cases h with
  | limit => exact hb.report _
  | report _ _ => exact hb.report _
  | alloc hmakes => exact hb.alloc (hmakes.key?_ne hspares ht)
  | fill _ _ _ => exact hb.setProp fun hroot => absurd hroot (Nat.ne_of_gt hb₀.root_lt)
  | create hcreate _ _ _ _ _ _ => simp [ht.2] at hcreate
  | store _ _ _ hstores _ hbind =>
      refine hb.setProp ?_
      rintro - rfl
      have htarget := hspares.node_eq_of_stores hb.lacks (hstores hkeys)
      obtain ⟨v, rfl, hvalue⟩ := ht.2 htarget
      exact Resolver.bind_window_to_itself hb₀ htarget hvalue ht.1 hbind
  | @window fuel id kind declarators d name _ _ hnode hd hname _ _ _ =>
      refine hb.setProp ?_
      rintro - rfl
      exact absurd hname (hspares.naming hnode (List.mem_map.2 ⟨d, hd, rfl⟩))
  | storeDefault _ _ =>
      refine hb.setProp fun _ hkey => ?_
      simp [Resolver.defaultExport] at hkey
  | mark _ => exact hb.markExported _

end keeps

/-- The alias is kept, in bounds. -/
def Invariant.window (ast : Ast) (hfirst : ast.ChildrenFirst) (hspares : ast.SparesWindow) :
    Invariant { ast } where
  allows t b := t.InBounds ast b ∧ t.SparesWindow ast
  holds b := b.InBounds ∧ b.HasWindow
  knows b s := s < b.graph.size
  known := .inGraph fun _ hb => hb.1.inRange
  asked := by
    rintro t t' b₀ b ⟨ht, hb₀, hb, hgrows⟩ hask
    exact ⟨(bounds { ast } hfirst).asked ⟨ht.1, hb₀.1, hb.1, hgrows⟩ hask,
      hask.sparesWindow hspares rfl ht.2⟩
  changed := by
    rintro t b₀ b b' ⟨ht, hb₀, hb, -⟩ hchange
    exact ⟨hchange.inBounds (fun _ _ => id) hb.1, hchange.hasWindow hspares rfl ht.2 hb₀.2 hb.2⟩

theorem Invariant.window_bounded {ast : Ast} (hfirst : ast.ChildrenFirst)
    (hspares : ast.SparesWindow) : (window ast hfirst hspares).Bounded where
  node_lt := fun ht _ hn => hfirst.lt_of_occurs (ht.1.given_lt _ (Task.node_mem_given _)) hn
  home_lt := fun ht _ => ht.1.home_lt
  root_lt := fun hb => hb.1.root_lt
  known_lt := id

/-! ### Two ways to the globals -/

/-- The node is `window.n`. -/
def Ast.IsWindowAccess (ast : Ast) (access : NodeId) (n : String) : Prop :=
  ∃ base property, ast.node access = .member base property false ∧
    ast.node base = .identifier "window" ∧ ast.node property = .identifier n

/-- Where nothing names `window`, neither `window.n` nor `n` does. -/
theorem Ast.SparesWindow.name_ne {ast : Ast} (h : ast.SparesWindow) {n : String}
    {access id target : NodeId} (haccess : ast.IsWindowAccess access n)
    (hid : ast.node id = .identifier n) (htarget : target ∈ [access, id]) :
    target < ast.size ∧ ast.node target ≠ .identifier "window" := by
  obtain ⟨base, property, hnode, -, hproperty⟩ := haccess
  have hnaming := h.naming hnode (List.mem_singleton_self property)
  rcases List.mem_pair.1 htarget with rfl | rfl
  · exact ⟨Ast.lt_size_of_node_ne (by simp [hnode]), by simp [hnode]⟩
  · refine ⟨Ast.lt_size_of_node_ne (by simp [hid]), ?_⟩
    rwa [hid, ← hproperty]

namespace Resolver

variable {r : Resolver} {b c : Bindings} {scope : Option SymbolId} {n : String}
  {access id : NodeId}

/-- With the alias, `window.n` denotes what the globals have under `n`. -/
theorem resolve_window_eq (hkeys : r.keys = .direct) (hb : b.HasWindow)
    (haccess : r.ast.IsWindowAccess access n) (hscope : scope.getD root = root) (levels : Nat) :
    (r.resolve (levels + 2) access scope {} b).1 = b.graph.prop? root n := by
  obtain ⟨base, property, hnode, hbase, hproperty⟩ := haccess
  have hmember : b.graph.member? root n = b.graph.prop? root n := by
    rw [SymbolGraph.member?, if_pos hb.hasMembers]
  rw [resolve, resolveNode, hnode]
  dsimp only
  rw [resolveMember, resolve_global hbase hscope, hb.window]
  dsimp only
  rw [memberKey?_name hkeys _ hproperty]
  dsimp only
  rw [hmember]
  cases b.graph.prop? root n with
  | some s => rfl
  | none => rfl

/-- A value that is bound to a name among the globals is stored there. -/
theorem bind_global_stores (hnode : r.ast.node id = .identifier n) (hscope : scope.getD root = root)
    {levels : Nat} {value : Option NodeId} {s : SymbolId}
    (hbind : r.bind levels id value scope b = (some s, c)) :
    ∃ c' : Bindings, c = c'.setProp root n s := by
  rw [bind, bindWith, hnode] at hbind
  dsimp only at hbind
  rw [hscope] at hbind
  cases value with
  | none =>
      obtain ⟨hs, hc⟩ := Prod.mk.inj hbind
      exact ⟨_, hc.symm.trans (congrArg _ (Option.some.inj hs))⟩
  | some value =>
      rw [bindName] at hbind
      generalize r.resolve levels value (some root) {} b = out at hbind
      obtain ⟨found, c'⟩ := out
      cases found with
      | none => cases hbind
      | some found =>
          cases hbind
          exact ⟨c', rfl⟩

/-- So is one that is bound to `window.n`. -/
theorem bind_window_stores (hkeys : r.keys = .direct) (hb : b.HasWindow)
    (haccess : r.ast.IsWindowAccess access n) (hscope : scope.getD root = root) {levels : Nat}
    {value : Option NodeId} {s : SymbolId}
    (hbind : r.bind (levels + 1) access value scope b = (some s, c)) :
    ∃ c' : Bindings, c = c'.setProp root n s := by
  obtain ⟨base, property, hnode, hbase, hproperty⟩ := haccess
  have howner : (some root).filter (fun s => (b.graph.get s).hasMembers) = some root :=
    if_pos hb.hasMembers
  rw [bind, bindWith, hnode] at hbind
  dsimp only at hbind
  rw [hscope, bindMember, resolve_global hbase rfl, hb.window] at hbind
  dsimp only at hbind
  rw [memberKey?_name hkeys _ hproperty, howner] at hbind
  cases value with
  | none => cases hbind
  | some value =>
      dsimp only at hbind
      generalize r.resolve (levels + 1) value (some root) {} b = out at hbind
      obtain ⟨found, c'⟩ := out
      cases found with
      | none => cases hbind
      | some found =>
          cases hbind
          exact ⟨c', rfl⟩

/-- Binding keeps the alias, unless `window` is bound. -/
theorem hasWindow_bind {q : Ast} (hfirst : q.ChildrenFirst) (hspares : q.SparesWindow)
    {target : NodeId} (htarget : target < q.size)
    (hname : q.node target ≠ .identifier "window") {value : Option NodeId}
    (hvalue : ∀ v, value = some v → v < q.size) (hscope : scope.getD root = root)
    (hb : b.InBounds) (hwindow : b.HasWindow) (levels : Nat) :
    (Resolver.bind { ast := q } levels target value scope b).2.HasWindow := by
  let task : Task := .bind levels target value scope
  have hhome : task.home = root := hscope
  have hbounds : task.InBounds q b := by
    refine ⟨?_, hhome ▸ hb.root_lt⟩
    intro n hn
    rcases List.mem_cons.1 hn with rfl | hn
    · exact htarget
    · exact hvalue n (Option.mem_toList.1 hn)
  have hspares' : task.SparesWindow q := ⟨hscope, fun h => absurd h hname⟩
  exact ((Invariant.window q hfirst hspares).run ⟨hbounds, hspares'⟩ ⟨hb, hwindow⟩).1.2

/-- **What is bound to `window.n` or to `n` is stored among the globals**, and the alias is kept. -/
theorem bind_through_window {q : Ast} (hfirst : q.ChildrenFirst) (hspares : q.SparesWindow)
    (haccess : q.IsWindowAccess access n) (hid : q.node id = .identifier n)
    {value : Option NodeId} (hvalue : ∀ v, value = some v → v < q.size)
    (hscope : scope.getD root = root) (hb : b.InBounds) (hwindow : b.HasWindow)
    {target : NodeId} (htarget : target ∈ [access, id]) {levels : Nat} {s : SymbolId}
    (hbind : Resolver.bind { ast := q } (levels + 2) target value scope b = (some s, c)) :
    c.HasWindow ∧ c.graph.prop? root n = some s := by
  have hstores : ∃ c' : Bindings, c = c'.setProp root n s := by
    rcases List.mem_pair.1 htarget with rfl | rfl
    · exact bind_window_stores rfl hwindow haccess hscope hbind
    · exact bind_global_stores hid hscope hbind
  have hc : c.HasWindow := by
    obtain ⟨hlt, hname⟩ := hspares.name_ne haccess hid htarget
    have hkept := hasWindow_bind hfirst hspares hlt hname hvalue hscope hb hwindow (levels + 2)
    rwa [hbind] at hkept
  obtain ⟨c', rfl⟩ := hstores
  have hroot := hc.root_lt
  rw [Bindings.setProp_graph, SymbolGraph.size_setProp] at hroot
  refine ⟨hc, ?_⟩
  rw [Bindings.setProp_graph, SymbolGraph.prop?_setProp, if_pos ⟨⟨rfl, hroot⟩, rfl⟩]

end Resolver

/-! ### A whole module -/

namespace Analysis

theorem hasWindow_start {options : AnalysisOptions} (hwindow : options.window = true) :
    (start options).HasWindow where
  window := by
    rw [start, SymbolGraph.prop?_seed, if_pos ⟨hwindow, rfl, rfl⟩]
  hasMembers := (hoisting_start ⟨#[], 0⟩ options).hasMembers root
  lacks := lacks_start options "window"

/-- Both passes go through states in which the alias is there, and end. -/
theorem passes_keep_window (ast : Ast) (options : AnalysisOptions)
    (hwindow : options.window = true) (hfirst : ast.ChildrenFirst)
    (hprogram : ast.program < ast.size) (hspares : ast.SparesWindow) :
    ∃ run₁ run₂, Checked.declare ast ast.program ⟨start options, []⟩ = some ((), run₁) ∧
      run₁.now = declared ast options ∧
      Checked.assign ast ast.program run₁ = some ((), run₂) ∧ run₂.now = ofAst ast options ∧
      ∀ b ∈ run₂.states, b.HasWindow ∧ b.InBounds := by
  have hbounded := Invariant.window_bounded hfirst hspares
  have hstart : (Invariant.window ast hfirst hspares).holds (Run.mk (start options) []).now :=
    ⟨(hoisting_start ast options).inBounds, hasWindow_start hwindow⟩
  have hprogram' : ∀ n ∈ [ast.program], n < ast.size :=
    fun n hn => List.mem_singleton.1 hn ▸ hprogram
  obtain ⟨run₁, hrun₁, hnow₁, hall₁⟩ :=
    ((Invariant.declare_follows hbounded hstart ⟨⟨hprogram', hstart.1.root_lt⟩, trivial⟩).mono
      fun _ => And.left).forall_states fun b hb => by rwa [List.mem_singleton.1 hb]
  have hb₁ := hall₁ _ (List.mem_cons_self ..)
  obtain ⟨run₂, hrun₂, hnow₂, hall₂⟩ :=
    ((Invariant.assign_follows hbounded hb₁ ⟨⟨hprogram', hb₁.1.root_lt⟩, trivial⟩).mono
      fun _ => And.left).forall_states hall₁
  refine ⟨run₁, run₂, hrun₁, hnow₁, hrun₂, ?_, fun b hb => (hall₂ b hb).symm⟩
  rw [hnow₂, hnow₁]
  rfl

/-- **The alias survives both passes.**  Take a module that is bound with `window`, in which nothing
names `window` and no literal spells it out.  In every state that the two passes go through,
`window` is the global scope.  So `window.n` and `n`, in any tree, denote the same symbol there or
neither denotes one; and if nothing names `window` in that tree either, then what is bound to one of
them is found under both. -/
theorem window_survives (ast : Ast) (options : AnalysisOptions) (hwindow : options.window = true)
    (hfirst : ast.ChildrenFirst) (hprogram : ast.program < ast.size)
    (hspares : ast.SparesWindow) :
    ∃ run₁ run₂, Checked.declare ast ast.program ⟨start options, []⟩ = some ((), run₁) ∧
      run₁.now = declared ast options ∧
      Checked.assign ast ast.program run₁ = some ((), run₂) ∧ run₂.now = ofAst ast options ∧
      ∀ b ∈ run₂.states, b.graph.window? = some root ∧
        ∀ (q : Ast) (n : String) (access id : NodeId) (scope : Option SymbolId) (levels : Nat),
          q.IsWindowAccess access n → q.node id = .identifier n → scope.getD root = root →
          (Resolver.resolve { ast := q } (levels + 2) access scope {} b).1 =
              (Resolver.resolve { ast := q } (levels + 2) id scope {} b).1 ∧
            (q.ChildrenFirst → q.SparesWindow →
              ∀ value : Option NodeId, (∀ v, value = some v → v < q.size) →
              ∀ target ∈ [access, id], ∀ s c,
                Resolver.bind { ast := q } (levels + 2) target value scope b = (some s, c) →
                (Resolver.resolve { ast := q } (levels + 2) access scope {} c).1 = some s ∧
                  (Resolver.resolve { ast := q } (levels + 2) id scope {} c).1 = some s) := by
  obtain ⟨run₁, run₂, hrun₁, hnow₁, hrun₂, hnow₂, hstates⟩ :=
    passes_keep_window ast options hwindow hfirst hprogram hspares
  refine ⟨run₁, run₂, hrun₁, hnow₁, hrun₂, hnow₂, ?_⟩
  intro b hb
  obtain ⟨hb, hbounds⟩ := hstates b hb
  refine ⟨hb.window, ?_⟩
  intro q n access id scope levels haccess hid hscope
  have hglobal : ∀ c : Bindings,
      (Resolver.resolve { ast := q } (levels + 2) id scope {} c).1 = c.graph.prop? root n :=
    fun c => congrArg Prod.fst (Resolver.resolve_global hid hscope (levels + 1) c)
  refine ⟨(Resolver.resolve_window_eq rfl hb haccess hscope levels).trans (hglobal b).symm, ?_⟩
  intro hqfirst hqspares value hvalue target htarget s c hbind
  have hc : c.HasWindow ∧ c.graph.prop? root n = some s :=
    Resolver.bind_through_window hqfirst hqspares haccess hid hvalue hscope hbounds hb htarget hbind
  rw [hglobal c, Resolver.resolve_window_eq rfl hc.1 haccess hscope levels]
  exact ⟨hc.2, hc.2⟩

/-- The module `window.a = () => {}; export { a }; export default window;`. -/
def setsThroughWindow : Ast where
  nodes := ([.identifier "window", .identifier "a", .member 0 1 false, .arrowFunction,
    .assignment 2 3, .expressionStatement 4, .identifier "a", .exportSpecifier 6,
    .exportNamed none [7], .identifier "window", .exportDefault 9, .program [5, 8, 10]].map
      fun n => ⟨n, ⟨1, 1⟩⟩).toArray
  program := 11

/-- The default export binds `window`, to itself: the alias is still there, and a new function that
is bound to `window.a` is found under `a`. -/
theorem setsThroughWindow_keeps_alias :
    setsThroughWindow.SparesWindow ∧
      (ofAst setsThroughWindow {}).graph.window? = some root ∧
      ∃ s c, Resolver.bind { ast := setsThroughWindow } maxNesting 2 (some 3) none
          (ofAst setsThroughWindow {}) = (some s, c) ∧
        (Resolver.resolve { ast := setsThroughWindow } maxNesting 6 none {} c).1 = some s := by
  have hfirst : setsThroughWindow.ChildrenFirst := by
    unfold Ast.ChildrenFirst
    decide
  have hspares : setsThroughWindow.SparesWindow := by decide
  obtain ⟨run₁, run₂, -, -, -, hnow, hstates⟩ :=
    window_survives setsThroughWindow {} rfl hfirst (by decide) hspares
  obtain ⟨hwindow, halias⟩ := hstates run₂.now (List.mem_cons_self ..)
  rw [hnow] at hwindow halias
  obtain ⟨-, hseen⟩ := halias setsThroughWindow "a" 2 6 none 254 ⟨0, 1, rfl, rfl, rfl⟩ rfl rfl
  have hbinds : (Resolver.bind { ast := setsThroughWindow } maxNesting 2 (some 3) none
      (ofAst setsThroughWindow {})).1.isSome := by decide +kernel
  obtain ⟨s, hs⟩ := Option.isSome_iff_exists.1 hbinds
  refine ⟨hspares, hwindow, s, _, Prod.ext hs rfl, ?_⟩
  have hvalue : ∀ v, some 3 = some v → v < setsThroughWindow.size := by
    rintro v ⟨rfl⟩
    decide
  exact (hseen hfirst hspares (some 3) hvalue 2 (List.mem_cons_self ..) s _ (Prod.ext hs rfl)).2

end Analysis

end ExportSurface

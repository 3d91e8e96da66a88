/-
Binding stays in bounds.

In a tree whose nodes come after their parts, a task that is given nodes of the tree asks for tasks
that are given such nodes.  Properties lead to symbols of the graph, so what is found, made or
stored is in the graph as well.

Main definitions:

* `Bindings.InBounds`, `Task.InBounds` — states and tasks that stay in their arenas;
* `Invariant.bounds` — that they do, as an invariant.

Main results:

* `Resolver.resolve_inBounds`, `Resolver.bind_inBounds` — **resolving and binding stay in bounds**;
* `Resolver.declare_inBounds`, `Resolver.assign_inBounds` — **so do both passes**.
-/

import ExportSurface.Proofs.CheckedBinding

set_option autoImplicit false

namespace ExportSurface

open SymbolGraph (root)

/-! ### States -/

namespace Bindings

/-- Properties lead to symbols of the graph, and the globals are among these. -/
structure InBounds (b : Bindings) : Prop where
  inRange : b.graph.InRange
  root_lt : root < b.graph.size

namespace InBounds

variable {b : Bindings}

theorem report (h : b.InBounds) (d : Diagnostic) : (b.report d).InBounds := ⟨h.inRange, h.root_lt⟩

theorem alloc (h : b.InBounds) {s : Symbol} (hs : s.props = .empty) : (b.alloc s).2.InBounds where
  inRange := h.inRange.alloc hs
  root_lt := by
    rw [alloc_graph, SymbolGraph.size_alloc]
    exact Nat.lt_succ_of_lt h.root_lt

theorem setProp (h : b.InBounds) {id t : SymbolId} (key : String) (ht : t < b.graph.size) :
    (b.setProp id key t).InBounds where
  inRange := h.inRange.setProp ht
  root_lt := by simpa using h.root_lt

theorem markExported (h : b.InBounds) (id : SymbolId) : (b.markExported id).InBounds where
  inRange := h.inRange.markExported id
  root_lt := by simpa using h.root_lt

end InBounds

end Bindings

/-- Where known symbols are symbols of the graph, a change stays in bounds. -/
theorem Change.inBounds {r : Resolver} {knows : Bindings → SymbolId → Prop} {b₀ b b' : Bindings}
    {t : Task} (h : Change r knows b₀ b t b') (hknows : ∀ b s, knows b s → s < b.graph.size)
    (hb : b.InBounds) : b'.InBounds := by
  cases h with
  | limit => exact hb.report _
  | report _ _ => exact hb.report _
  | alloc hmakes => exact hb.alloc hmakes.props
  | fill _ _ hs => exact hb.setProp _ (hknows _ _ hs)
  | create _ _ _ _ _ _ hs => exact hb.setProp _ (hknows _ _ hs)
  | store _ _ _ _ hs _ => exact hb.setProp _ (hknows _ _ hs)
  | window _ _ _ _ _ hs => exact hb.setProp _ (hknows _ _ hs)
  | storeDefault _ hs => exact hb.setProp _ (hknows _ _ hs)
  | mark _ => exact hb.markExported _

/-! ### Tasks -/

/-- A task is given nodes of the tree, and names are looked up in a symbol of the graph. -/
structure Task.InBounds (ast : Ast) (t : Task) (b : Bindings) : Prop where
  given_lt : ∀ n ∈ t.given, n < ast.size
  home_lt : t.home < b.graph.size

theorem Asks.given_lt {r : Resolver} {b₀ b : Bindings} {t t' : Task} (h : Asks r b₀ t t' b)
    (hfirst : r.ast.ChildrenFirst) (ht : ∀ n ∈ t.given, n < r.ast.size) :
    ∀ n ∈ t'.given, n < r.ast.size := by
  intro n hn
  obtain ⟨m, hm, hoccurs⟩ := h.occurs n hn
  exact hfirst.lt_of_occurs (ht m hm) hoccurs

/-- Symbols of the graph are known. -/
theorem Knowledge.inGraph {holds : Bindings → Prop} (hholds : ∀ b, holds b → b.graph.InRange) :
    Knowledge holds fun b s => s < b.graph.size where
  made := fun _ => by simp
  found := fun hb => (hholds _ hb).lt_size
  kept := fun hs hgrows _ => Nat.lt_of_lt_of_le hs hgrows.size_le

/-- Tasks and states stay in bounds. -/
def Invariant.bounds (r : Resolver) (hfirst : r.ast.ChildrenFirst) : Invariant r where
  allows := Task.InBounds r.ast
  holds := Bindings.InBounds
  knows b s := s < b.graph.size
  known := .inGraph fun _ hb => hb.inRange
  asked := by
    rintro t t' b₀ b ⟨ht, -, hb, hgrows⟩ hask
    refine ⟨hask.given_lt hfirst ht.given_lt, ?_⟩
    rcases hask.home_eq with hhome | hhome
    · exact hhome ▸ Nat.lt_of_lt_of_le ht.home_lt hgrows.size_le
    · exact hhome ▸ hb.root_lt
  changed := fun hway hchange => hchange.inBounds (fun _ _ => id) hway.holds

theorem Invariant.bounds_bounded {ast : Ast} (hfirst : ast.ChildrenFirst) :
    (bounds { ast } hfirst).Bounded where
  node_lt := fun ht _ hn => hfirst.lt_of_occurs (ht.given_lt _ (Task.node_mem_given _)) hn
  home_lt := fun ht _ => ht.home_lt
  root_lt := fun hb => hb.root_lt
  known_lt := id

namespace Resolver

variable {r : Resolver} (hfirst : r.ast.ChildrenFirst) {b : Bindings} (hb : b.InBounds)
include hfirst hb

theorem resolve_inBounds (levels : Nat) {id : NodeId} (hid : id < r.ast.size)
    (scope : Option SymbolId) (hscope : scope.getD root < b.graph.size) (options : ResolveOptions) :
    (r.resolve levels id scope options b).2.InBounds ∧
      ∀ s, (r.resolve levels id scope options b).1 = some s →
        s < (r.resolve levels id scope options b).2.graph.size := by
  have ht : (Task.resolve levels id scope options).InBounds r.ast b :=
    ⟨fun n hn => List.mem_singleton.1 hn ▸ hid, hscope⟩
  obtain ⟨hend, -, hfound⟩ := (Invariant.bounds r hfirst).run ht hb
  exact ⟨hend, hfound⟩

theorem bind_inBounds (levels : Nat) (target : NodeId) (value : Option NodeId)
    (hnodes : ∀ n ∈ target :: value.toList, n < r.ast.size) (scope : Option SymbolId)
    (hscope : scope.getD root < b.graph.size) :
    (r.bind levels target value scope b).2.InBounds ∧
      ∀ s, (r.bind levels target value scope b).1 = some s →
        s < (r.bind levels target value scope b).2.graph.size := by
  have ht : (Task.bind levels target value scope).InBounds r.ast b := ⟨hnodes, hscope⟩
  obtain ⟨hend, -, hfound⟩ := (Invariant.bounds r hfirst).run ht hb
  exact ⟨hend, hfound⟩

theorem declare_inBounds {id : NodeId} (hid : id < r.ast.size) : (r.declare id b).InBounds := by
  have ht : (Task.declare (id + 1) id).InBounds r.ast b :=
    ⟨fun n hn => List.mem_singleton.1 hn ▸ hid, hb.root_lt⟩
  exact ((Invariant.bounds r hfirst).run ht hb).1

theorem assign_inBounds {id : NodeId} (hid : id < r.ast.size) : (r.assign id b).InBounds := by
  have ht : (Task.assign (id + 1) id).InBounds r.ast b :=
    ⟨fun n hn => List.mem_singleton.1 hn ▸ hid, hb.root_lt⟩
  exact ((Invariant.bounds r hfirst).run ht hb).1

/-- What the variables of a declaration are bound to is in the graph. -/
theorem bindDeclarators_inBounds {id : NodeId} (hid : id < r.ast.size) {kind : DeclarationKind}
    {declarators : List Declarator}
    (hnode : r.ast.node id = .variableDeclaration kind declarators) :
    ∀ s ∈ (r.bindDeclarators declarators b).1,
      s < (r.bindDeclarators declarators b).2.graph.size := by
  let inv := Invariant.bounds r hfirst
  have ht : inv.allows (.assign 1 id) b :=
    ⟨fun n hn => List.mem_singleton.1 hn ▸ hid, hb.root_lt⟩
  have hasks : ∀ before d after, declarators = before ++ d :: after →
      Asks r b (.assign 1 id) (.bind maxNesting d.target d.init none)
        (r.bindDeclarators before b).2 := by
    rintro before d after rfl
    exact .declarator hnode
  have hsafe := Setting.safe_bindDeclarators (σ := inv.setting (.assign 1 id) b) ⟨hb, .refl b⟩ hasks
  have hrun := (inv.run_part ht hb hsafe).1
  rw [Program.run_bindDeclarators] at hrun
  exact hrun.2.2

theorem exportDeclaration_inBounds {id : NodeId} (hid : id < r.ast.size) {x : NodeId}
    {specifiers : List NodeId} (hnode : r.ast.node id = .exportNamed (some x) specifiers) :
    (r.exportDeclaration x b).InBounds := by
  let inv := Invariant.bounds r hfirst
  have ht : inv.allows (.assign 1 id) b :=
    ⟨fun n hn => List.mem_singleton.1 hn ▸ hid, hb.root_lt⟩
  have hsafe := Setting.safe_exportDeclaration (σ := inv.setting (.assign 1 id) b) rfl hnode
    ⟨hb, .refl b⟩
  have hrun := (inv.run_part ht hb hsafe).2
  rwa [Program.run_exportDeclaration] at hrun

end Resolver

end ExportSurface

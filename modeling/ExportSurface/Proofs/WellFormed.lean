/-
Well-formed states, at every point of binding a module.

A state is well-formed when the global scope is where it belongs, every property and every value
lies within its arena, literals have no properties, and every diagnostic concerns a node of the
tree.  Literals are never given properties by member assignments, which ask for members first, but
the declaration pass also stores into the symbol that `window` denotes without asking.  There no
literal exists yet: as long as variables are declared by plain names, the pass only makes
placeholders.  So the declaration pass is followed with an invariant of its own, and the assignment
pass with well-formedness alone.

Main definitions:

* `Node.declarators`, `Ast.PlainDeclarators` — the variables of a declaration; all of them plain;
* `Bindings.WellFormed`, `Bindings.Hoisting` — what holds at every point, and the same without
  literals;
* `Invariant.hoisting`, `Invariant.wellFormed` — the declaration pass keeps the one, the assignment
  pass the other.

Main results:

* `Change.wellFormed` — one change keeps a state well-formed;
* `Checked.ofAst_follows_wellFormed` — **binding a module never leaves its arenas, and every state
  on the way is well-formed**.
-/

import ExportSurface.Proofs.Bounds

set_option autoImplicit false

namespace ExportSurface

open SymbolGraph (root)

/-! ### Declared variables -/

/-- The variables that a node declares. -/
def Node.declarators : Node → List Declarator
  | .variableDeclaration _ declarators => declarators
  | _ => []

/-- A variable is declared by a name, or by something that is not followed. -/
def Node.isPlainTarget : Node → Bool
  | .identifier _ | .other _ => true
  | _ => false

/-- All variables of a tree are declared by names, or by something that is not followed. -/
def Ast.PlainDeclarators (ast : Ast) : Prop :=
  ∀ id < ast.size, ∀ d ∈ (ast.node id).declarators, (ast.node d.target).isPlainTarget = true

/-! ### The invariant -/

namespace Bindings

/-- The global scope is the first symbol and has no kind; properties lead to symbols of the graph;
literals have no properties; values and diagnostics name nodes of the tree. -/
structure WellFormed (ast : Ast) (b : Bindings) : Prop where
  root_lt : root < b.graph.size
  root_kind : (b.graph.get root).kind = .unknown
  target_lt : ∀ id key t, b.graph.prop? id key = some t → t < b.graph.size
  literal_props : ∀ id, (b.graph.get id).kind = .literal → (b.graph.get id).props = .empty
  value_lt : ∀ id n, (b.graph.get id).value = some n → n < ast.size
  diagnostic_lt : ∀ d ∈ b.diagnostics, d.node < ast.size

namespace WellFormed

variable {ast : Ast} {b : Bindings}

theorem inBounds (h : WellFormed ast b) : b.InBounds :=
  ⟨SymbolGraph.inRange_iff.2 h.target_lt, h.root_lt⟩

theorem root_hasMembers (h : WellFormed ast b) : (b.graph.get root).hasMembers = true := by
  rw [Symbol.hasMembers, h.root_kind]
  rfl

/-- Member access sees every property. -/
theorem member?_eq (h : WellFormed ast b) (id : SymbolId) (key : String) :
    b.graph.member? id key = b.graph.prop? id key := by
  rw [SymbolGraph.member?]
  split
  · rfl
  · next hmembers =>
      have hliteral : (b.graph.get id).kind = .literal := by
        simpa [Symbol.hasMembers] using hmembers
      rw [SymbolGraph.prop?, h.literal_props id hliteral, Props.get?_empty]

theorem report (h : WellFormed ast b) {d : Diagnostic} (hd : d.node < ast.size) :
    WellFormed ast (b.report d) where
  root_lt := h.root_lt
  root_kind := h.root_kind
  target_lt := h.target_lt
  literal_props := h.literal_props
  value_lt := h.value_lt
  diagnostic_lt := by
    intro e he
    rw [report_diagnostics, Array.mem_push] at he
    rcases he with he | rfl
    · exact h.diagnostic_lt e he
    · exact hd

theorem alloc (h : WellFormed ast b) {s : Symbol} (hprops : s.props = .empty)
    (hvalue : ∀ n, s.value = some n → n < ast.size) : WellFormed ast (b.alloc s).2 where
  root_lt := by
    rw [alloc_graph, SymbolGraph.size_alloc]
    exact Nat.lt_succ_of_lt h.root_lt
  root_kind := by
    rw [alloc_graph, SymbolGraph.get_alloc, if_neg (Nat.ne_of_lt h.root_lt)]
    exact h.root_kind
  target_lt := SymbolGraph.inRange_iff.1 (h.inBounds.inRange.alloc hprops)
  literal_props := by
    intro id hid
    rw [alloc_graph, SymbolGraph.get_alloc] at hid ⊢
    split at hid
    · next hnew => rw [if_pos hnew, hprops]
    · next hold => rw [if_neg hold, h.literal_props id hid]
  value_lt := by
    intro id n hn
    rw [alloc_graph, SymbolGraph.get_alloc] at hn
    split at hn
    · exact hvalue n hn
    · exact h.value_lt id n hn
  diagnostic_lt := h.diagnostic_lt

theorem setProp (h : WellFormed ast b) {id t : SymbolId} (key : String) (ht : t < b.graph.size)
    (hid : (b.graph.get id).hasMembers = true) : WellFormed ast (b.setProp id key t) where
  root_lt := by
    rw [setProp_graph, SymbolGraph.size_setProp]
    exact h.root_lt
  root_kind := by
    rw [setProp_graph, SymbolGraph.kind_setProp]
    exact h.root_kind
  target_lt := SymbolGraph.inRange_iff.1 (h.inBounds.inRange.setProp ht)
  literal_props := by
    intro j hj
    rw [setProp_graph, SymbolGraph.kind_setProp] at hj
    have hne : j ≠ id := by
      rintro rfl
      rw [Symbol.hasMembers, hj] at hid
      contradiction
    rw [setProp_graph, SymbolGraph.get_setProp, if_neg (fun hboth => hne hboth.1)]
    exact h.literal_props j hj
  value_lt := by
    intro j n hn
    rw [setProp_graph, SymbolGraph.value_setProp] at hn
    exact h.value_lt j n hn
  diagnostic_lt := h.diagnostic_lt

theorem markExported (h : WellFormed ast b) (id : SymbolId) :
    WellFormed ast (b.markExported id) where
  root_lt := by
    rw [markExported_graph, SymbolGraph.size_markExported]
    exact h.root_lt
  root_kind := by
    rw [markExported_graph, SymbolGraph.kind_markExported]
    exact h.root_kind
  target_lt := SymbolGraph.inRange_iff.1 (h.inBounds.inRange.markExported id)
  literal_props := by
    intro j hj
    rw [markExported_graph, SymbolGraph.kind_markExported] at hj
    rw [markExported_graph, SymbolGraph.props_markExported]
    exact h.literal_props j hj
  value_lt := by
    intro j n hn
    rw [markExported_graph, SymbolGraph.value_markExported] at hn
    exact h.value_lt j n hn
  diagnostic_lt := h.diagnostic_lt

end WellFormed

/-- Well-formed, and without literals. -/
structure Hoisting (ast : Ast) (b : Bindings) : Prop extends WellFormed ast b where
  hasMembers : ∀ id, (b.graph.get id).hasMembers = true

namespace Hoisting

variable {ast : Ast} {b : Bindings}

theorem alloc (h : Hoisting ast b) {s : Symbol} (hprops : s.props = .empty)
    (hvalue : ∀ n, s.value = some n → n < ast.size) (hs : s.hasMembers = true) :
    Hoisting ast (b.alloc s).2 := by
  refine ⟨h.toWellFormed.alloc hprops hvalue, ?_⟩
  intro id
  rw [alloc_graph, SymbolGraph.get_alloc]
  split
  · exact hs
  · exact h.hasMembers id

theorem setProp (h : Hoisting ast b) {id t : SymbolId} (key : String) (ht : t < b.graph.size) :
    Hoisting ast (b.setProp id key t) := by
  refine ⟨h.toWellFormed.setProp key ht (h.hasMembers id), ?_⟩
  intro id
  rw [setProp_graph, SymbolGraph.hasMembers_setProp]
  exact h.hasMembers id

end Hoisting

end Bindings

/-! ### Changes -/

section changes

variable {r : Resolver} {b₀ b b' : Bindings} {t : Task}

/-- **One change keeps a state well-formed**, if it is made among the globals, and there are no
literals while variables are declared. -/
theorem Change.wellFormed (h : Change r (fun b s => s < b.graph.size) b₀ b t b')
    (hb : b.WellFormed r.ast) (hhome : t.home = root)
    (hnodes : ∀ n, r.ast.Occurs t.node n → n < r.ast.size)
    (hwindow : t.declares = true → ∀ id, (b.graph.get id).hasMembers = true) :
    b'.WellFormed r.ast := by
  cases h with
  | limit => exact hb.report (hnodes _ .here)
  | report _ hd => exact hb.report (hnodes _ hd)
  | alloc hmakes => exact hb.alloc hmakes.props fun n hn => hnodes n (hmakes.occurs hn)
  | fill _ hmembers hs => exact hb.setProp _ hs hmembers
  | create _ _ howner hmembers _ hc hs =>
      subst hc
      refine hb.setProp _ hs ?_
      rw [(Bindings.Grows.alloc ..).hasMembers_eq howner, hmembers]
  | store haddress hgrows howner _ hs _ =>
      refine hb.setProp _ hs ?_
      rcases haddress.owner_cases with rfl | rfl | ⟨hmember, hmembers⟩
      · exact hb.root_hasMembers
      · rw [Task.home] at hhome
        rw [hhome]
        exact hb.root_hasMembers
      · rw [hgrows.hasMembers_eq (howner hmember), hmembers]
  | window _ _ _ _ _ hs => exact hb.setProp _ hs (hwindow rfl _)
  | storeDefault _ hs => exact hb.setProp _ hs hb.root_hasMembers
  | mark _ => exact hb.markExported _

end changes

/-- What the declaration pass asks for while variables are plain. -/
def Task.Hoists (ast : Ast) : Task → Prop
  | .declare _ id => id < ast.size
  | .bind _ target value scope => target < ast.size ∧ (ast.node target).isPlainTarget = true ∧
      value = none ∧ scope.getD root = root
  | _ => False

namespace Task.Hoists

variable {ast : Ast} {t : Task}

theorem node_lt (h : t.Hoists ast) : t.node < ast.size := by
  cases t with
  | declare _ _ => exact h
  | bind _ _ _ _ => exact h.1
  | _ => exact h.elim

theorem home_eq (h : t.Hoists ast) : t.home = root := by
  cases t with
  | declare _ _ => rfl
  | bind _ _ _ _ => exact h.2.2.2
  | _ => exact h.elim

/-- Only placeholders are made. -/
theorem hasMembers (h : t.Hoists ast) {s : Symbol} (hs : t.Makes ast s) : s.hasMembers = true := by
  cases hs with
  | placeholder _ => rfl
  | _ => exact h.elim

/-- Nothing else is asked for. -/
theorem asks (hfirst : ast.ChildrenFirst) (hplain : ast.PlainDeclarators) (h : t.Hoists ast)
    {b₀ b : Bindings} {t' : Task} (hask : Asks { ast } b₀ t t' b) : t'.Hoists ast := by
  cases hask with
  | declareStatement hnode | declareExpression hnode | declareExported hnode =>
      exact hfirst.lt_size h (by simp [hnode, Node.references])
  | hoisted hnode =>
      refine ⟨hfirst.lt_size h ?_, hplain _ h _ ?_, rfl, rfl⟩
      · rw [hnode]
        exact List.mem_flatMap.2 ⟨_, List.mem_append_right _ (.head _), by simp⟩
      · rw [hnode]
        exact List.mem_append_right _ (.head _)
  | classBody hnode _ | function hnode _ | targetBase hnode | targetKey hnode _
  | member hnode _ _ _ => simp [Hoists, hnode, Node.isPlainTarget] at h
  | named _ => cases h.2.2.1
  | _ => exact h.elim

end Task.Hoists

namespace Invariant

variable (ast : Ast) (hfirst : ast.ChildrenFirst)

/-- While variables are declared, there are no literals. -/
def hoisting (hplain : ast.PlainDeclarators) : Invariant { ast } where
  allows t _ := t.Hoists ast
  holds := Bindings.Hoisting ast
  knows b s := s < b.graph.size
  known := .inGraph fun _ hb => hb.inBounds.inRange
  asked := fun hway hask => hway.allowed.asks hfirst hplain hask
  changed := by
    rintro t b₀ b b' ⟨ht, -, hb, -⟩ hchange
    have hnodes : ∀ n, ast.Occurs t.node n → n < ast.size := fun n => hfirst.lt_of_occurs ht.node_lt
    refine ⟨hchange.wellFormed hb.toWellFormed ht.home_eq hnodes fun _ => hb.hasMembers, ?_⟩
    cases hchange with
    | report _ _ => exact hb.hasMembers
    | alloc hmakes =>
        exact (hb.alloc hmakes.props (fun n hn => hnodes n (hmakes.occurs hn))
          (ht.hasMembers hmakes)).hasMembers
    | store _ _ _ _ hs _ => exact (hb.setProp _ hs).hasMembers
    | window _ _ _ _ _ hs => exact (hb.setProp _ hs).hasMembers
    | _ => exact ht.elim

/-- During the assignment pass, states are well-formed. -/
def wellFormed : Invariant { ast } where
  allows t _ := (∀ n ∈ t.given, n < ast.size) ∧ t.home = root ∧ t.declares = false
  holds := Bindings.WellFormed ast
  knows b s := s < b.graph.size
  known := .inGraph fun _ hb => hb.inBounds.inRange
  asked := by
    rintro t t' b₀ b ⟨⟨hgiven, hhome, hdeclares⟩, -, -, -⟩ hask
    refine ⟨hask.given_lt hfirst hgiven, ?_, hask.declares_eq_false hdeclares⟩
    rcases hask.home_eq with h | h
    · rw [h, hhome]
    · exact h
  changed := by
    rintro t b₀ b b' ⟨⟨hgiven, hhome, hdeclares⟩, -, hb, -⟩ hchange
    refine hchange.wellFormed hb hhome ?_ fun h => absurd h (by simp [hdeclares])
    exact fun n => hfirst.lt_of_occurs (hgiven _ t.node_mem_given)

theorem hoisting_bounded (hplain : ast.PlainDeclarators) :
    (hoisting ast hfirst hplain).Bounded where
  node_lt := fun ht n hn => hfirst.lt_of_occurs (Task.Hoists.node_lt ht) hn
  home_lt := fun ht hb => Task.Hoists.home_eq ht ▸ hb.root_lt
  root_lt := fun hb => hb.root_lt
  known_lt := id

theorem wellFormed_bounded : (wellFormed ast hfirst).Bounded where
  node_lt := fun ht n hn => hfirst.lt_of_occurs (ht.1 _ (Task.node_mem_given _)) hn
  home_lt := fun ht hb => ht.2.1 ▸ hb.root_lt
  root_lt := fun hb => hb.root_lt
  known_lt := id

end Invariant

/-- The empty global scope. -/
theorem Run.hoisting_fresh (ast : Ast) : Run.fresh.now.Hoisting ast where
  root_lt := Nat.zero_lt_one
  root_kind := rfl
  target_lt := by
    intro id key t h
    rw [SymbolGraph.prop?, Run.fresh, SymbolGraph.get_empty] at h
    contradiction
  literal_props := by
    intro id _
    rw [Run.fresh, SymbolGraph.get_empty]
    rfl
  value_lt := by
    intro id n h
    rw [Run.fresh, SymbolGraph.get_empty] at h
    contradiction
  diagnostic_lt := nofun
  hasMembers := by
    intro id
    rw [Run.fresh, SymbolGraph.get_empty]
    rfl

namespace Checked

variable {ast : Ast} {run : Run}

/-! ### Seeding -/

section seed

variable {I : Bindings → Prop} (hadd : ∀ b : Bindings, I b → I (b.alloc (.object none)).2)
  (hset : ∀ (b : Bindings) (id t : SymbolId) (key : String), I b → t < b.graph.size →
    I (b.setProp id key t))
include hadd hset

theorem seedCommonJs_follows (hfresh : I Run.fresh.now) :
    Follows I seedCommonJs Run.fresh ((), { graph := SymbolGraph.empty.seed true false }) := by
  have hmodule := hadd _ hfresh
  have hexports := hadd _ hmodule
  have hfirst := hset _ 1 2 "exports" hexports (by decide)
  have hsecond := hset _ root 1 "module" hfirst (by decide)
  have hthird := hset _ root 2 "exports" hsecond (by decide)
  refine .bind (.alloc rfl hmodule) fun _ hnow => .bind (.alloc hnow hexports) fun _ hnow => ?_
  refine .bind (.setProp hnow (by decide) hfirst) fun _ hnow => ?_
  refine .bind (.setProp hnow (by decide) hsecond) fun _ hnow => ?_
  exact .setProp hnow (by decide) hthird

/-- Seeding goes through whatever is kept while unnamed objects are added and properties are
set. -/
theorem seed_follows (hfresh : I Run.fresh.now) (options : AnalysisOptions) :
    Follows I (seed options.commonJs options.window) Run.fresh ((), Analysis.start options) := by
  have hcommonJs : Follows I (bif options.commonJs then seedCommonJs else pure ()) Run.fresh
      ((), { graph := SymbolGraph.empty.seed options.commonJs false }) := by
    cases options.commonJs with
    | true => exact seedCommonJs_follows hadd hset hfresh
    | false => exact .of_read rfl
  have hseeded := hcommonJs.ends hfresh
  have hroot : root < (SymbolGraph.empty.seed options.commonJs false).size := by
    cases options.commonJs <;> decide
  refine .bind hcommonJs fun run hnow => ?_
  cases hwindow : options.window with
  | false =>
      rw [Analysis.start, hwindow]
      exact ⟨run, rfl, hnow, fun _ => .inl⟩
  | true =>
      have hstart : Analysis.start options = Bindings.setProp
          { graph := SymbolGraph.empty.seed options.commonJs false } root "window" root := by
        rw [Analysis.start, hwindow]
        cases options.commonJs <;> rfl
      rw [hstart]
      exact .setProp hnow hroot (hset _ root root "window" hseeded hroot)

end seed

theorem seed_hoisting (ast : Ast) (options : AnalysisOptions) :
    Follows (Bindings.Hoisting ast) (seed options.commonJs options.window) Run.fresh
      ((), Analysis.start options) :=
  seed_follows (fun _ hb => hb.alloc rfl (by simp [Symbol.object]) rfl)
    (fun _ _ _ key hb ht => hb.setProp key ht) (Run.hoisting_fresh ast) options

/-! ### The whole run -/

/-- **Binding a module never leaves its arenas, and is well-formed at every point.**  The run with
checked accesses is not stopped, it ends with the bindings of the module, and each state it passes
through, from the empty global scope on, is well-formed, so that member access sees every
property there. -/
theorem ofAst_follows_wellFormed (ast : Ast) (options : AnalysisOptions)
    (hfirst : ast.ChildrenFirst) (hprogram : ast.program < ast.size)
    (hplain : ast.PlainDeclarators) :
    ∃ run, ofAst ast options Run.fresh = some ((), run) ∧ run.now = Analysis.ofAst ast options ∧
      ∀ b ∈ run.states, b.WellFormed ast ∧
        ∀ id key, b.graph.member? id key = b.graph.prop? id key := by
  have hfresh : ∀ b ∈ Run.fresh.states, b.Hoisting ast :=
    fun b hb => List.mem_singleton.1 hb ▸ Run.hoisting_fresh ast
  obtain ⟨run₁, hrun₁, hnow₁, hall₁⟩ :=
    (seed_hoisting ast options).forall_states hfresh
  have hb₁ := hall₁ _ (List.mem_cons_self ..)
  obtain ⟨run₂, hrun₂, hnow₂, hall₂⟩ :=
    ((Invariant.declare_follows (Invariant.hoisting_bounded ast hfirst hplain) hb₁
      hprogram).mono fun _ => And.left).forall_states hall₁
  have hb₂ := hall₂ _ (List.mem_cons_self ..)
  -- the assignment pass makes literals, so only well-formedness goes through it
  obtain ⟨run₃, hrun₃, hnow₃, hall₃⟩ :=
    ((Invariant.assign_follows (Invariant.wellFormed_bounded ast hfirst) hb₂.toWellFormed
      ⟨fun n hn => List.mem_singleton.1 hn ▸ hprogram, rfl, rfl⟩).mono
        fun _ => And.left).forall_states fun b hb => (hall₂ b hb).toWellFormed
  refine ⟨run₃, ?_, ?_, fun b hb => ⟨hall₃ b hb, (hall₃ b hb).member?_eq⟩⟩
  · rw [ofAst, bind_eq hrun₁, bind_eq hrun₂]
    exact hrun₃
  · rw [hnow₃, hnow₂, hnow₁]
    rfl

/-- The module `var x; window.x.y = "z"; export { x }`. -/
def storeThroughWindow : Ast where
  nodes := ([.identifier "x", .variableDeclaration .var [⟨0, none⟩], .identifier "window",
    .identifier "x", .member 2 3 false, .identifier "y", .member 4 5 false, .literal (.string "z"),
    .assignment 6 7, .expressionStatement 8, .identifier "x", .exportSpecifier 10,
    .exportNamed none [11], .program [1, 9, 12]].map fun n => ⟨n, ⟨1, 1⟩⟩).toArray
  program := 13

theorem storeThroughWindow_wellFormed :
    storeThroughWindow.ChildrenFirst ∧ storeThroughWindow.PlainDeclarators ∧
      ∃ run, ofAst storeThroughWindow {} Run.fresh = some ((), run) ∧
        run.now = Analysis.ofAst storeThroughWindow {} ∧
        ∀ b ∈ run.states, b.WellFormed storeThroughWindow ∧
          ∀ id key, b.graph.member? id key = b.graph.prop? id key := by
  have hfirst : storeThroughWindow.ChildrenFirst := by
    unfold Ast.ChildrenFirst
    decide
  have hplain : storeThroughWindow.PlainDeclarators := by
    unfold Ast.PlainDeclarators
    decide
  exact ⟨hfirst, hplain, ofAst_follows_wellFormed storeThroughWindow {} hfirst (by decide) hplain⟩

end Checked

end ExportSurface

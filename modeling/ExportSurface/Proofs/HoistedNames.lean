/-
Names that are declared somewhere are known everywhere.

The declaration pass gives every variable that a module declares at the top level a symbol, whether
the declaration stands alone or in an export, before or after its uses.  From then on nothing takes
the name away: statements may rebind it or fail, and may write to the globals through other names,
but no change drops a property.  So throughout the assignment pass the name resolves, and an export
of it finds a symbol to flag.

Main definitions:

* `Ast.DeclaresVariable`, `Ast.Hoists` — a statement, or a module, declares a variable by a name.

Main results:

* `Resolver.isSome_declareThrough` — the declaration pass gets to every declared variable;
* `Resolver.Visits.grows` — **the graph only grows from one visit to the next**;
* `Analysis.hoisted_names_resolve` — **hoisting covers the whole assignment pass**.
-/

import ExportSurface.Proofs.Evolution

set_option autoImplicit false

namespace ExportSurface

open SymbolGraph (root)

/-! ### Declared names -/

/-- A statement declares a variable of the given name, by itself or in what it encloses. -/
inductive Ast.DeclaresVariable (ast : Ast) (x : String) : NodeId → Prop where
  | declarator {id : NodeId} {d : Declarator} :
      d ∈ (ast.node id).declarators → ast.node d.target = .identifier x → DeclaresVariable ast x id
  | expression {id e : NodeId} :
      ast.node id = .expressionStatement e → DeclaresVariable ast x e → DeclaresVariable ast x id
  | inline {id declaration : NodeId} {specifiers : List NodeId} :
      ast.node id = .exportNamed (some declaration) specifiers →
      DeclaresVariable ast x declaration → DeclaresVariable ast x id

/-- Some top-level statement declares a variable of the given name. -/
def Ast.Hoists (ast : Ast) (x : String) : Prop :=
  ∃ statement ∈ ast.body, ast.DeclaresVariable x statement

/-! ### The declaration pass -/

/-- A name that one round of a fold sets is there at the end. -/
theorem Bindings.isSome_foldl {α : Type} {f : Bindings → α → Bindings} {l : List α} {a : α}
    {x : String} (ha : a ∈ l) (hf : ∀ (b : Bindings) (a : α), b.Grows (f b a))
    (hset : ∀ b : Bindings, root < b.graph.size → ((f b a).graph.prop? root x).isSome)
    {b : Bindings} (hb : root < b.graph.size) : ((l.foldl f b).graph.prop? root x).isSome := by
  obtain ⟨before, after, rfl⟩ := List.append_of_mem ha
  rw [List.foldl_append]
  have hbefore := (Grows.foldl hf before b).size_le
  exact (Grows.foldl hf after _).graph.isSome_prop? (hset _ (Nat.lt_of_lt_of_le hb hbefore))

namespace Resolver

/-- A declared variable gets a symbol under its name. -/
theorem isSome_declareVariable {r : Resolver} {d : Declarator} {x : String}
    (htarget : r.ast.node d.target = .identifier x) (kind : DeclarationKind) {b : Bindings}
    (hb : root < b.graph.size) : ((r.declareVariable kind b d).graph.prop? root x).isSome := by
  have hbind : r.bind maxNesting d.target none (some root) b =
      (some b.graph.size, (b.alloc .placeholder).2.setProp root x b.graph.size) := by
    rw [bind, bindWith, htarget]
    rfl
  have hset :
      (((b.alloc .placeholder).2.setProp root x b.graph.size).graph.prop? root x).isSome := by
    rw [Bindings.setProp_graph, SymbolGraph.prop?_setProp, if_pos]
    · rfl
    · exact ⟨⟨rfl, by simpa using Nat.lt_succ_of_lt hb⟩, rfl⟩
  rw [declareVariable, hbind]
  dsimp only
  split
  · split
    · exact (SymbolGraph.Evolves.setProp ..).isSome_prop? hset
    · exact hset
  · exact hset

/-- **The declaration pass gets to every declared variable.** -/
theorem isSome_declareThrough {r : Resolver} (hfirst : r.ast.ChildrenFirst) {x : String}
    {id : NodeId} (h : r.ast.DeclaresVariable x id) (hid : id < r.ast.size)
    {fuel : Nat} (hfuel : id < fuel) {b : Bindings} (hb : root < b.graph.size) :
    ((r.declareThrough fuel id b).graph.prop? root x).isSome := by
  induction h generalizing fuel with
  | @declarator id d hd htarget =>
      obtain ⟨fuel, rfl⟩ := Nat.exists_eq_add_one.2 (Nat.zero_lt_of_lt hfuel)
      rw [declareThrough]
      cases hnode : r.ast.node id with
      | variableDeclaration kind declarators =>
          rw [hnode] at hd
          exact Bindings.isSome_foldl hd (fun b d => r.declareVariable_grows b kind d)
            (fun _ => isSome_declareVariable htarget kind) hb
      | _ => simp [hnode, Node.declarators] at hd
  | @expression id e hnode _ ih =>
      obtain ⟨fuel, rfl⟩ := Nat.exists_eq_add_one.2 (Nat.zero_lt_of_lt hfuel)
      have hlt : e < id := hfirst id hid e (by simp [hnode, Node.references])
      rw [declareThrough, hnode]
      exact ih (Nat.lt_trans hlt hid) (Nat.lt_of_lt_of_le hlt (Nat.le_of_lt_succ hfuel))
  | @inline id declaration specifiers hnode _ ih =>
      obtain ⟨fuel, rfl⟩ := Nat.exists_eq_add_one.2 (Nat.zero_lt_of_lt hfuel)
      have hlt : declaration < id := hfirst id hid declaration (by simp [hnode, Node.references])
      rw [declareThrough, hnode]
      exact ih (Nat.lt_trans hlt hid) (Nat.lt_of_lt_of_le hlt (Nat.le_of_lt_succ hfuel))

/-! ### Resolving a name -/

/-- A global name resolves in every scope, and resolving it changes nothing. -/
theorem resolve_identifier {r : Resolver} {id : NodeId} {x : String}
    (hnode : r.ast.node id = .identifier x) (levels : Nat) (scope : Option SymbolId) {b : Bindings}
    (hx : (b.graph.prop? root x).isSome) :
    ∃ s, r.resolve (levels + 1) id scope {} b = (some s, b) := by
  have hlookup : (lookup b.graph scope x).isSome := by
    rw [lookup, Option.isSome_or, SymbolGraph.global?, hx, Bool.or_true]
  obtain ⟨s, hs⟩ := Option.isSome_iff_exists.1 hlookup
  refine ⟨s, ?_⟩
  rw [resolve, resolveNode, hnode]
  exact Prod.ext hs rfl

/-- The export of a global name finds a symbol to flag. -/
theorem assign_specifier {r : Resolver} {n source : NodeId} {x : String}
    (hn : r.ast.node n = .exportSpecifier source) (hsource : r.ast.node source = .identifier x)
    {b : Bindings} (hx : (b.graph.prop? root x).isSome) :
    ∃ s, r.assign n b = b.markExported s := by
  have hresolve : ∃ s, r.resolve maxNesting source (some root) {} b = (some s, b) :=
    resolve_identifier hsource 255 (some root) hx
  obtain ⟨s, hs⟩ := hresolve
  refine ⟨s, ?_⟩
  rw [assign, assignThrough, hn]
  dsimp only
  rw [exportSpecifier, hs]

end Resolver

/-! ### A whole module -/

namespace Analysis

theorem isSome_declared {ast : Ast} (options : AnalysisOptions) (hfirst : ast.ChildrenFirst)
    (hprogram : ast.program < ast.size) {x : String} (hx : ast.Hoists x) :
    ((declared ast options).graph.prop? root x).isSome := by
  obtain ⟨statement, hmem, hdeclares⟩ := hx
  have hroot : root < (start options).graph.size := (hoisting_start ast options).inBounds.root_lt
  rw [declared, Resolver.declare, Resolver.declareThrough]
  rw [Ast.body] at hmem
  cases hnode : ast.node ast.program with
  | program body =>
      rw [hnode] at hmem
      have hlt : statement < ast.program := hfirst _ hprogram statement (hnode ▸ hmem)
      refine Bindings.isSome_foldl hmem
        (fun b n => Resolver.declareThrough_grows { ast } b ast.program n) ?_ hroot
      intro b hb
      exact Resolver.isSome_declareThrough (r := { ast }) hfirst hdeclares
        (Nat.lt_trans hlt hprogram) hlt hb
  | _ => simp [hnode] at hmem

/-- **Hoisting covers the whole assignment pass.**  Take a name that is declared as a variable at
the top level of a module, wherever that is.  In every state that the assignment pass goes through,
the name resolves, and an export of the name flags a symbol without reporting anything. -/
theorem hoisted_names_resolve (ast : Ast) (options : AnalysisOptions) (hfirst : ast.ChildrenFirst)
    (hprogram : ast.program < ast.size) (x : String) (hx : ast.Hoists x) :
    ∃ run, Checked.assign ast ast.program ⟨declared ast options, []⟩ = some ((), run) ∧
      run.now = ofAst ast options ∧
      (∀ b ∈ run.states, ∀ (r : Resolver) (levels : Nat) (id : NodeId) (scope : Option SymbolId),
        r.ast.node id = .identifier x → ∃ s, r.resolve (levels + 1) id scope {} b = (some s, b)) ∧
      ∀ n c source, Visits ast options n c → ast.node n = .exportSpecifier source →
        ast.node source = .identifier x → ∃ s, Resolver.assign { ast } n c = c.markExported s := by
  have hdeclared := isSome_declared options hfirst hprogram hx
  have hb : (Run.mk (declared ast options) []).now.InBounds :=
    inBounds_declared options hfirst hprogram
  have hassign := Invariant.assign_follows (Invariant.bounds_bounded hfirst) hb
    ⟨fun n hn => List.mem_singleton.1 hn ▸ hprogram, hb.root_lt⟩
  obtain ⟨run, hrun, hnow, hstates⟩ := hassign.forall_states fun b hstart => by
    rw [List.mem_singleton.1 hstart]
    exact ⟨hb, .refl _⟩
  refine ⟨run, hrun, hnow, ?_, ?_⟩
  · intro b hb r levels id scope hnode
    have hx : (b.graph.prop? root x).isSome := (hstates b hb).2.graph.isSome_prop? hdeclared
    exact Resolver.resolve_identifier hnode levels scope hx
  · intro n c source hvisits hn hsource
    exact Resolver.assign_specifier hn hsource (hvisits.grows.graph.isSome_prop? hdeclared)

/-- The export of `f` stands before its declaration: `f` resolves all along, and the export flags a
symbol. -/
theorem exportBeforeValue_hoisted :
    exportBeforeValue.Hoists "f" ∧
      (∃ run, Checked.assign exportBeforeValue 6 ⟨declared exportBeforeValue {}, []⟩ =
          some ((), run) ∧
        ∀ b ∈ run.states, ∃ s,
          Resolver.resolve { ast := exportBeforeValue } 1 0 none {} b = (some s, b)) ∧
      ∃ s, Resolver.assign { ast := exportBeforeValue } 1 (declared exportBeforeValue {}) =
        (declared exportBeforeValue {}).markExported s := by
  have hfirst : exportBeforeValue.ChildrenFirst := by
    unfold Ast.ChildrenFirst
    decide
  have hx : exportBeforeValue.Hoists "f" :=
    ⟨5, by decide, .declarator (d := ⟨3, some 4⟩) (by decide) rfl⟩
  have hprogram : exportBeforeValue.node 6 = .program ([] ++ 2 :: [5]) := rfl
  have hnamed : exportBeforeValue.node 2 = .exportNamed none ([] ++ 1 :: []) := rfl
  have hvisits : Visits exportBeforeValue {} 1 (declared exportBeforeValue {}) :=
    .statement hprogram (.specifier hnamed .here)
  obtain ⟨run, hrun, -, hresolve, hexport⟩ :=
    hoisted_names_resolve exportBeforeValue {} hfirst (by decide) "f" hx
  exact ⟨hx, ⟨run, hrun, fun b hb => hresolve b hb _ 0 0 none rfl⟩, hexport 1 _ 0 hvisits rfl rfl⟩

end Analysis

end ExportSurface

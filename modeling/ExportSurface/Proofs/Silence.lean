/-
What a module without diagnostics has left out.

A construct that cannot be resolved is skipped, and usually reported: by the construct itself, or by
the one that asked for its value.  Two cases are reported by nobody.  A name that is bound to
nothing is not reported by itself, and an object literal does not report the values that it misses.
And a target that nothing can be stored at, such as a destructuring pattern, is passed over with its
value.  Here it is shown that there is no third case.

Main definitions:

* `Ast.isTarget` — can something be stored at a node?
* `Resolver.Dropped` — an expression that denotes nothing and is not reported.

Main results:

* `Resolver.isSome_bindWith_eq` — binding without diagnostics stores something, if that is possible
  at all;
* `Resolver.run_eq_none_iff` — resolving without diagnostics yields something, unless the expression
  is dropped;
* `Analysis.outcomes_of_silent` — **in a silent run, exactly these two cases are left out**.
-/

import ExportSurface.Proofs.Evaluations

set_option autoImplicit false

namespace ExportSurface

open SymbolGraph (root)

/-- Something can be stored there: at a name, at a member access, and at a declaration that has a
name. -/
def Ast.isTarget (ast : Ast) (target : NodeId) : Bool :=
  match ast.node target with
  | .identifier _ | .member _ _ _ => true
  | .classDeclaration (some id) _ | .functionDeclaration (some id) =>
      (ast.identifierName? id).isSome
  | _ => false

namespace Bindings

/-- Nothing has been reported. -/
def Silent (b : Bindings) : Prop := b.diagnostics = #[]

theorem not_silent_report (b : Bindings) (d : Diagnostic) : ¬ (b.report d).Silent := by
  simp [Silent]

/-- Nothing has been reported where nothing is reported later. -/
theorem Grows.silent {b b' : Bindings} (h : b.Grows b') (hb' : b'.Silent) : b.Silent := by
  have hreports := h.reports
  rw [hb'] at hreports
  exact Array.toList_eq_nil_iff.1 (List.prefix_nil.1 hreports)

end Bindings

namespace Resolver

variable {ast : Ast} {recur : Resolve}

/-! ### Binding -/

theorem isSome_bindName {id : NodeId} {name : String} {value : Option NodeId} {scope : SymbolId}
    {b : Bindings} (hsilent : (bindName recur id name value scope b).2.Silent) :
    (bindName recur id name value scope b).1.isSome = true := by
  cases value with
  | none => rfl
  | some v =>
      revert hsilent
      rw [bindName]
      split
      · exact fun _ => rfl
      · exact fun hsilent => absurd hsilent (Bindings.not_silent_report _ _)

theorem isSome_bindMember {target base property : NodeId} {computed : Bool} {value : Option NodeId}
    {scope : SymbolId} {b : Bindings}
    (hsilent : (bindMember { ast } recur target base property computed value scope b).2.Silent) :
    (bindMember { ast } recur target base property computed value scope b).1.isSome = true := by
  revert hsilent
  rw [bindMember]
  dsimp only
  split
  · split
    · exact fun _ => rfl
    · exact fun hsilent => absurd hsilent (Bindings.not_silent_report _ _)
  · exact fun hsilent => absurd hsilent (Bindings.not_silent_report _ _)

/-- **Binding without diagnostics** stores something exactly if the target is one. -/
theorem isSome_bindWith_eq {target : NodeId} {value : Option NodeId} {scope : Option SymbolId}
    {b : Bindings} (hsilent : (bindWith { ast } recur target value scope b).2.Silent) :
    (bindWith { ast } recur target value scope b).1.isSome = ast.isTarget target := by
  revert hsilent
  rw [bindWith, Ast.isTarget]
  cases ast.node target with
  | identifier name => exact isSome_bindName
  | member base property computed => exact isSome_bindMember
  | classDeclaration id body =>
      cases id with
      | none => exact fun _ => rfl
      | some id =>
          dsimp only
          rw [Ast.identifierName?]
          cases ast.node id with
          | identifier name => exact isSome_bindName
          | _ => exact fun _ => rfl
  | functionDeclaration id =>
      cases id with
      | none => exact fun _ => rfl
      | some id =>
          dsimp only
          rw [Ast.identifierName?]
          cases ast.node id with
          | identifier name => exact isSome_bindName
          | _ => exact fun _ => rfl
  | _ => exact fun _ => rfl

/-! ### Resolving -/

/-- An expression that denotes nothing and is not reported: a name that is bound to nothing, or an
assignment to something that is no target. -/
inductive Dropped (ast : Ast) (c : Call) : Prop where
  | name {name : String} : ast.node c.node = .identifier name →
      lookup c.state.graph c.scope name = none → Dropped ast c
  | assignment {target value : NodeId} : ast.node c.node = .assignment target value →
      ast.isTarget target = false → Dropped ast c

theorem resolveMember_isSome {node base property : NodeId} {computed : Bool}
    {scope : Option SymbolId} {b : Bindings}
    (hsilent : (resolveMember { ast } recur node base property computed scope {} b).2.Silent) :
    (resolveMember { ast } recur node base property computed scope {} b).1.isSome = true := by
  revert hsilent
  rw [resolveMember]
  dsimp only
  split
  · split
    · exact fun _ => rfl
    · exact fun hsilent => absurd hsilent (Bindings.not_silent_report _ _)
  · exact fun hsilent => absurd hsilent (Bindings.not_silent_report _ _)

theorem not_dropped {c : Call} (hname : ∀ name, ast.node c.node ≠ .identifier name)
    (hassignment : ∀ target value, ast.node c.node ≠ .assignment target value) :
    ¬ Dropped ast c := by
  rintro (⟨hnode, -⟩ | ⟨hnode, -⟩)
  · exact hname _ hnode
  · exact hassignment _ _ hnode

/-- **Resolving without diagnostics** yields something exactly if the expression is not dropped. -/
theorem run_eq_none_iff {levels : Nat} {c : Call}
    (hsilent : (c.run (resolve { ast } levels)).2.Silent) :
    (c.run (resolve { ast } levels)).1 = none ↔ Dropped ast c := by
  cases levels with
  | zero => exact absurd hsilent (Bindings.not_silent_report _ _)
  | succ levels =>
      rw [Call.run, resolve, resolveNode] at hsilent ⊢
      cases hnode : ast.node c.node with
      | identifier name =>
          constructor
          · exact .name hnode
          · rintro (⟨h, hlookup⟩ | ⟨h, -⟩)
            · cases hnode.symm.trans h
              exact hlookup
            · cases hnode.symm.trans h
      | assignment target value =>
          rw [hnode] at hsilent
          dsimp only
          rw [← Option.not_isSome_iff_eq_none, isSome_bindWith_eq hsilent, Bool.not_eq_true]
          constructor
          · exact .assignment hnode
          · rintro (⟨h, -⟩ | ⟨h, htarget⟩)
            · cases hnode.symm.trans h
            · cases hnode.symm.trans h
              exact htarget
      | member base property computed =>
          rw [hnode] at hsilent
          refine iff_of_false ?_ (not_dropped (by simp [hnode]) (by simp [hnode]))
          exact Option.isSome_iff_ne_none.1 (resolveMember_isSome hsilent)
      -- A symbol is made for each of these.
      | classDeclaration _ _ | functionDeclaration _ | functionExpression _ | arrowFunction
      | classBody _ | object _ | literal _ =>
          exact iff_of_false (Option.some_ne_none _)
            (not_dropped (by simp [hnode]) (by simp [hnode]))
      -- Anything else is reported as unsupported.
      | _ =>
          rw [hnode] at hsilent
          exact absurd hsilent (Bindings.not_silent_report _ _)

/-! ### The entries of an object literal -/

/-- The symbol of an object literal is there while its entries are set. -/
theorem Call.lt_size_withEntries (ast : Ast) (levels : Nat) (c : Call) (entries : List Entry) :
    c.state.graph.size < (c.withEntries ast (resolve { ast } levels) entries).graph.size := by
  have hmade : c.state.graph.size < (c.state.alloc (.object (some c.node))).2.graph.size := by simp
  exact Nat.lt_of_lt_of_le hmade (addProperties_grows ..).size_le

/-- The value of an entry of an object literal denotes something, and the entry is set to it. -/
def Call.SetsEntry (c : Call) (ast : Ast) (levels : Nat) (before : List Entry) (entry : Entry)
    (key : String) : Prop :=
  ∃ s, ((c.value ast (resolve { ast } levels) before entry).run (resolve { ast } levels)).1 =
      some s ∧
    (c.withEntries ast (resolve { ast } levels) (before ++ [entry])).graph.prop?
      c.state.graph.size key = some s

theorem Call.prop?_withEntries {levels : Nat} {c : Call} {before : List Entry} {entry : Entry}
    {key : String} {s : SymbolId} (hkey : ast.entryKey? entry = some key)
    (hvalue : ((c.value ast (resolve { ast } levels) before entry).run
      (resolve { ast } levels)).1 = some s) :
    (c.withEntries ast (resolve { ast } levels) (before ++ [entry])).graph.prop?
      c.state.graph.size key = some s := by
  have howner : c.state.graph.size <
      ((c.value ast (resolve { ast } levels) before entry).run
        (resolve { ast } levels)).2.graph.size :=
    Nat.lt_of_lt_of_le (lt_size_withEntries ast levels c before) (resolve_grows ..).size_le
  rw [withEntries_concat, hkey]
  rcases hout : (c.value ast (resolve { ast } levels) before entry).run (resolve { ast } levels)
    with ⟨found, b⟩
  rw [hout] at hvalue howner
  obtain rfl : found = some s := hvalue
  dsimp only
  rw [Bindings.setProp_graph, SymbolGraph.prop?_setProp, if_pos ⟨⟨rfl, howner⟩, rfl⟩]

/-- Nothing but the value decides whether an entry is set. -/
theorem Call.setsEntry_iff {levels : Nat} {c : Call} {before : List Entry} {entry : Entry}
    {key : String} (hkey : ast.entryKey? entry = some key) :
    c.SetsEntry ast levels before entry key ↔
      ((c.value ast (resolve { ast } levels) before entry).run (resolve { ast } levels)).1 ≠
        none := by
  constructor
  · rintro ⟨s, hs, -⟩ hnone
    rw [hs] at hnone
    cases hnone
  · intro hsome
    obtain ⟨s, hs⟩ := Option.ne_none_iff_exists'.1 hsome
    exact ⟨s, hs, prop?_withEntries hkey hs⟩

end Resolver

/-! ### A silent run -/

namespace Analysis

open Resolver (Call Dropped)

/-- A visited specifier that reports nothing flags what it denotes. -/
theorem Visits.specifier_flagged {ast : Ast} {options : AnalysisOptions}
    (hfirst : ast.ChildrenFirst) (hprogram : ast.program < ast.size) {n source : NodeId}
    {b : Bindings} (hvisit : Visits ast options n b) (hnode : ast.node n = .exportSpecifier source)
    (hsilent : (Resolver.assign { ast } n b).Silent) :
    ∃ s, (Resolver.resolve { ast } maxNesting source (some root) {} b).1 = some s ∧
      (ofAst ast options).Flagged s := by
  rw [Resolver.assign, Resolver.assignThrough, hnode] at hsilent
  dsimp only at hsilent
  rw [Resolver.exportSpecifier] at hsilent
  split at hsilent
  · next s c hout =>
      refine ⟨s, by rw [hout], ?_⟩
      have hexports : s ∈ Resolver.exportsAt { ast } n b := by
        rw [Resolver.exportsAt, hnode]
        dsimp only
        rw [hout]
        exact List.mem_singleton_self s
      exact (Resolver.flagged_assign_iff (r := { ast }) hfirst hprogram
        (inBounds_declared options hfirst hprogram) s).2 (.inr ⟨n, b, hvisit, hexports⟩)
  · exact absurd hsilent (Bindings.not_silent_report _ _)

/-- **What a silent run has left out.**  If nothing is reported, then

* a value is stored wherever the passes store one, unless nothing can be stored there;
* every export specifier has flagged what it denotes;
* every expression that was evaluated denotes something, unless it is dropped;
* and every entry of an evaluated object literal that has a static key is set to what its value
  denotes, unless this value is dropped. -/
theorem outcomes_of_silent (ast : Ast) (options : AnalysisOptions) (hfirst : ast.ChildrenFirst)
    (hprogram : ast.program < ast.size) (hsilent : (ofAst ast options).diagnostics = #[]) :
    (∀ target value scope b, Binds ast options target value scope b →
      (Resolver.bind { ast } maxNesting target value scope b).1.isSome = ast.isTarget target) ∧
    (∀ n source b, Visits ast options n b → ast.node n = .exportSpecifier source →
      ∃ s, (Resolver.resolve { ast } maxNesting source (some root) {} b).1 = some s ∧
        ((ofAst ast options).graph.get s).exported = true) ∧
    (∀ levels c, Evaluates ast options levels c →
      ((c.run (Resolver.resolve { ast } levels)).1 = none ↔ Dropped ast c)) ∧
    ∀ levels c before entry after key, Evaluates ast options (levels + 1) c →
      ast.node c.node = .object (before ++ entry :: after) → ast.entryKey? entry = some key →
      (c.SetsEntry ast levels before entry key ↔
        ¬ Dropped ast (c.value ast (Resolver.resolve { ast } levels) before entry)) := by
  have hevaluated : ∀ levels c, Evaluates ast options levels c →
      ((c.run (Resolver.resolve { ast } levels)).1 = none ↔ Dropped ast c) :=
    fun levels c hc => Resolver.run_eq_none_iff ((hc.grows hfirst hprogram).silent hsilent)
  refine ⟨?_, ?_, hevaluated, ?_⟩
  · intro target value scope b hbinds
    exact Resolver.isSome_bindWith_eq ((hbinds.grows hfirst hprogram).silent hsilent)
  · intro n source b hvisit hnode
    obtain ⟨hn, hassign⟩ := hvisit.assign_grows hfirst hprogram
    exact hvisit.specifier_flagged hfirst hprogram hnode (hassign.silent hsilent)
  · intro levels c before entry after key hc hnode hkey
    rw [Call.setsEntry_iff hkey, Ne, hevaluated levels _ (.part hc (.entry hnode hkey))]

/-- The module
`const f = () => {}; const { a } = y; module.exports = { b: y, c: f }; export { f };`. -/
def leavesOut : Ast where
  nodes := ([.identifier "f", .arrowFunction, .variableDeclaration .const [⟨0, some 1⟩],
    .other "object_pattern", .identifier "y", .variableDeclaration .const [⟨3, some 4⟩],
    .identifier "module", .identifier "exports", .member 6 7 false, .identifier "b",
    .identifier "y", .identifier "c", .identifier "f",
    .object [⟨9, 10, false⟩, ⟨11, 12, false⟩], .assignment 8 13, .expressionStatement 14,
    .identifier "f", .exportSpecifier 16, .exportNamed none [17], .program [2, 5, 15, 18]].map
      fun n => ⟨n, ⟨1, 1⟩⟩).toArray
  program := 19

/-- The object literal in it, with the state after `const { a } = y`: looking up `module` and
`exports` leaves that state as it is. -/
def leavesOutLiteral : Call := ⟨13, some root, passed leavesOut {} [2, 5]⟩

theorem leavesOutLiteral_evaluates : Evaluates leavesOut {} maxNesting leavesOutLiteral := by
  have hprogram : leavesOut.node 19 = .program ([2, 5] ++ 15 :: [18]) := rfl
  have hvisit : Visits leavesOut {} 14 (passed leavesOut {} [2, 5]) :=
    .statement hprogram (.expression rfl .here)
  have hmodule : Resolver.resolve { ast := leavesOut } maxNesting 6 (some root) {}
      (passed leavesOut {} [2, 5]) = (some 1, passed leavesOut {} [2, 5]) := by
    decide +kernel
  exact .bound (.assignment hvisit rfl) (.member rfl hmodule (by decide +kernel) rfl rfl)

/-- Nothing is reported, but nothing is stored at the pattern, and `b` is not set; `c` is. -/
theorem leavesOut_silent :
    leavesOut.ChildrenFirst ∧ (ofAst leavesOut {}).diagnostics = #[] ∧
      (∃ b, Binds leavesOut {} 3 (some 4) none b ∧
        (Resolver.bind { ast := leavesOut } maxNesting 3 (some 4) none b).1.isSome = false) ∧
      Evaluates leavesOut {} maxNesting leavesOutLiteral ∧
      ¬ leavesOutLiteral.SetsEntry leavesOut 255 [] ⟨9, 10, false⟩ "b" ∧
      leavesOutLiteral.SetsEntry leavesOut 255 [⟨9, 10, false⟩] ⟨11, 12, false⟩ "c" := by
  have hfirst : leavesOut.ChildrenFirst := by
    unfold Ast.ChildrenFirst
    decide
  have hsilent : (ofAst leavesOut {}).diagnostics = #[] := by decide +kernel
  obtain ⟨hbinds, -, -, hentries⟩ := outcomes_of_silent leavesOut {} hfirst (by decide) hsilent
  have hliteral : Evaluates leavesOut {} (255 + 1) leavesOutLiteral := leavesOutLiteral_evaluates
  refine ⟨hfirst, hsilent, ?_, hliteral, ?_, ?_⟩
  · have hprogram : leavesOut.node 19 = .program ([2] ++ 5 :: [15, 18]) := rfl
    have hdeclaration : leavesOut.node 5 = .variableDeclaration .const ([] ++ ⟨3, some 4⟩ :: []) :=
      rfl
    have hpattern : Binds leavesOut {} 3 (some 4) none (passed leavesOut {} [2]) :=
      .declarator (.statement hprogram .here) hdeclaration
    exact ⟨_, hpattern, hbinds _ _ _ _ hpattern⟩
  · rw [hentries 255 _ [] ⟨9, 10, false⟩ [⟨11, 12, false⟩] "b" hliteral rfl rfl, not_not]
    exact .name rfl (by decide +kernel)
  · rw [hentries 255 _ [⟨9, 10, false⟩] ⟨11, 12, false⟩ [] "c" hliteral rfl rfl]
    rintro (⟨hnode, hlookup⟩ | ⟨hnode, -⟩)
    · cases hnode
      revert hlookup
      decide +kernel
    · cases hnode

end Analysis

end ExportSurface

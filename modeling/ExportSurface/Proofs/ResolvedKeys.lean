/-
Reading a key off the tree is a shortcut for resolving it.

The key of a member access can be resolved like any other expression, a plain name as itself; the
literal that it then denotes tells the key.  A name or a literal need not be resolved for that, and
the analysis reads such keys off the tree.  In a lowered program this makes no difference: the same
diagnostics are reported in the same order, and the same nodes are exported.  Resolving the keys
only leaves literals behind that no property leads to.

Both ways mirror each other (`ExportSurface/Proofs/Mirroring.lean`) as long as the resolver that
resolves keys has a level left for each of them.  It has, in a lowered program: a key is one
reference below its access, and a lowered node fits into the levels that remain
(`ExportSurface/Proofs/NestingGuards.lean`).

Main definitions:

* `SymbolGraph.WithLiterals` — a graph with literals added that no property leads to.

Main results:

* `Resolver.resolve_mirrored_of_fitsIn` — **the two ways mirror each other where the levels
  suffice**;
* `Analysis.resolved_keys_sameSurface` — **both ways give the same analysis of a lowered program**.
-/

import ExportSurface.Proofs.ExportFlags
import ExportSurface.Proofs.Mirroring
import ExportSurface.Proofs.NestingGuards
import Mathlib.Tactic.IntervalCases

set_option autoImplicit false

namespace ExportSurface

open SymbolGraph (root)

/-! ### The two ways of reading keys -/

namespace Resolver

variable {ast : Ast}

theorem alike_resolved (hplain : ast.PlainKeys) {S : NodeId → Prop}
    (hclosed : ∀ id, S id → ∀ p ∈ (ast.node id).references, S p) :
    Alike [] S { ast } { ast, keys := .resolved } :=
  .of_no_hidden hclosed (fun _ _ => rfl) rfl fun _ => hplain

/-- **Where the levels suffice, resolving a key and reading it off mirror each other.** -/
theorem resolve_mirrored_of_fitsIn (hplain : ast.PlainKeys) {levels k : Nat} (hk : k < levels) :
    Mirrored [] (resolve { ast } levels) (resolve { ast, keys := .resolved } levels)
      (FitsIn ast.nodes k) := by
  induction levels generalizing k with
  | zero => omega
  | succ levels ih =>
      intro id hid scope hscope ρ b b' h
      cases k with
      | zero =>
          -- An unsupported node has no parts, and in particular no key.
          obtain ⟨kind, hnode⟩ := Ast.other_of_fitsIn hid
          simp only [resolve, resolveNode, hnode]
          exact (h.report _).nothing (Bindings.Prolongs.refl.report _)
      | succ k =>
          have hlevel : k < levels := by omega
          have hkeyLevel : ∃ next, resolve { ast, keys := .resolved } levels =
              resolveNode { ast, keys := .resolved } next := by
            obtain ⟨m, rfl⟩ : ∃ m, levels = m + 1 := ⟨levels - 1, by omega⟩
            exact ⟨_, rfl⟩
          exact resolveNode_reflects (alike_resolved hplain (Ast.fitsIn_closed k)) (ih hlevel)
            (fun _ => hkeyLevel) rfl (fun _ _ => List.not_mem_nil) (Ast.part_fitsIn hid) hscope h

/-- What the passes resolve in a lowered program: what is below a statement, and functions. -/
def Followed (ast : Ast) (id : NodeId) : Prop :=
  FitsIn ast.nodes (maxNesting - 1) id ∨
    FitsIn ast.nodes maxNesting id ∧ ∃ name, ast.node id = .functionDeclaration name

theorem followed_closed (ast : Ast) (id : NodeId) (h : Followed ast id) :
    ∀ p ∈ (ast.node id).references, Followed ast p := by
  intro p hp
  rcases h with hid | ⟨hid, -⟩
  · exact .inl (Ast.fitsIn_closed _ id hid p hp)
  · exact .inl (Ast.part_fitsIn hid p hp)

theorem followed_mirrored (hplain : ast.PlainKeys) :
    Mirrored [] (resolve { ast } maxNesting) (resolve { ast, keys := .resolved } maxNesting)
      (Followed ast) := by
  intro id hid scope hscope ρ b b' h
  rcases hid with hid | ⟨-, name, hnode⟩
  · exact resolve_mirrored_of_fitsIn hplain (by decide) id hid scope hscope ρ b b' h
  · -- Of a function nothing more is resolved.
    have hlevel : ∀ r : Resolver, r.resolve maxNesting = r.resolveNode (r.resolve 255) :=
      fun _ => rfl
    simp only [hlevel, resolveNode, hnode]
    exact functionSymbol_reflects List.not_mem_nil h id

end Resolver

/-! ### Whole programs -/

/-- The second graph has the symbols of the first under other positions, and besides them literals
that no property leads to. -/
def SymbolGraph.WithLiterals (g g' : SymbolGraph) : Prop :=
  ∃ ρ : SymbolId → SymbolId, Function.Injective ρ ∧ ρ root = root ∧
    (∀ s < g.size, ρ s < g'.size ∧ (g'.get (ρ s)).face = (g.get s).face ∧
      ∀ key, g'.prop? (ρ s) key = (g.prop? s key).map ρ) ∧
    ∀ t < g'.size, (∀ s < g.size, ρ s ≠ t) →
      (g'.get t).kind = .literal ∧ ∀ s key, g'.prop? s key ≠ some t

theorem Bindings.Mirrors.withLiterals {ρ : SymbolId → SymbolId} {b b' : Bindings}
    (h : b.Mirrors ρ [] b') : b.graph.WithLiterals b'.graph := by
  refine ⟨ρ, h.injective, h.map_root, ?_, ?_⟩
  · intro s hs
    exact ⟨h.map_lt s hs, h.face_eq s, fun key => h.prop?_eq s key List.not_mem_nil⟩
  · intro t ht hnew
    have hout : t ∉ Set.range ρ := by
      rintro ⟨s, rfl⟩
      exact hnew s (h.map_lt_iff.1 ht) rfl
    refine ⟨(h.outside rfl t hout).1, ?_⟩
    intro u key hu
    by_cases hmem : u ∈ Set.range ρ
    · -- What a renamed symbol leads to is a renamed symbol.
      obtain ⟨s, rfl⟩ := hmem
      rw [h.prop?_eq s key List.not_mem_nil, Option.map_eq_some_iff] at hu
      obtain ⟨v, -, rfl⟩ := hu
      exact hout ⟨v, rfl⟩
    · rw [(h.outside rfl u hmem).2 key] at hu
      contradiction

namespace Analysis

/-- **Keys may be read off the tree.**  In a lowered program in which plain member accesses have
names or literals as keys, resolving every key gives the same diagnostics in the same order and the
same answer to every query, and the graph differs by literals only that no property leads to. -/
theorem resolved_keys_sameSurface (v : Json) (ast : Ast) (h : Estree.lower v = .ok ast)
    (hplain : ast.PlainKeys) (options : AnalysisOptions) :
    (ofAst ast options).SameSurface
        (Resolver.bindModule { ast, keys := .resolved } (start options)) ∧
      (ofAst ast options).graph.WithLiterals
        (Resolver.bindModule { ast, keys := .resolved } (start options)).graph := by
  obtain ⟨body, hbody, hfits⟩ := Estree.fitsIn_of_lower h
  have hstart := (hoisting_start ast options).inBounds
  have hruns : Bindings.Stays id [] (start options) (ofAst ast options)
      (Resolver.bindModule { ast, keys := .resolved } (start options)) := by
    rw [ofAst, Resolver.bindModule_eq_bindStatements (r := { ast }) hbody,
      Resolver.bindModule_eq_bindStatements (r := { ast, keys := .resolved }) hbody]
    exact Resolver.bindStatements_stays
      (Resolver.alike_resolved hplain (Resolver.followed_closed ast))
      (Resolver.followed_mirrored hplain) (fun _ _ => rfl)
      (fun x hx p hp => .inl (Ast.part_fitsIn (hfits x hx) p hp))
      (fun x hx name hnode => .inr ⟨hfits x hx, name, hnode⟩) ast.program
      (.refl hstart.root_lt hstart.inRange)
  obtain ⟨ρ, -, hmirrors⟩ := hruns
  exact ⟨hmirrors.sameSurface, hmirrors.withLiterals⟩

/-- The tree of `module["exports"] = () => {}; module.exports.run = () => {};`. -/
def setsThroughKeys : Json :=
  Estree.typed "Program" [("body", .array [
    Estree.typed "ExpressionStatement" [("expression", Estree.typed "AssignmentExpression" [
      ("left", Estree.typed "MemberExpression" [("object", Estree.named "module"),
        ("property", Estree.typed "Literal" [("value", .string "exports")]),
        ("computed", .bool true)]),
      ("right", Estree.typed "ArrowFunctionExpression" [])])],
    Estree.typed "ExpressionStatement" [("expression", Estree.typed "AssignmentExpression" [
      ("left", Estree.typed "MemberExpression" [
        ("object", Estree.typed "MemberExpression" [("object", Estree.named "module"),
          ("property", Estree.named "exports")]),
        ("property", Estree.named "run")]),
      ("right", Estree.typed "ArrowFunctionExpression" [])])]])]

def setsThroughKeysArena : Ast where
  nodes := ([.identifier "module", .literal (.string "exports"), .member 0 1 true, .arrowFunction,
    .assignment 2 3, .expressionStatement 4, .identifier "module", .identifier "exports",
    .member 6 7 false, .identifier "run", .member 8 9 false, .arrowFunction, .assignment 10 11,
    .expressionStatement 12, .program [5, 13]].map fun n => ⟨n, ⟨0, 0⟩⟩).toArray
  program := 14

/-- Resolving the three keys makes three literals more. -/
theorem setsThroughKeys_sameSurface :
    Estree.lower setsThroughKeys = .ok setsThroughKeysArena ∧ setsThroughKeysArena.PlainKeys ∧
      (ofAst setsThroughKeysArena {}).graph.size = 7 ∧
      (Resolver.bindModule { ast := setsThroughKeysArena, keys := .resolved }
        (start {})).graph.size = 10 ∧
      (ofAst setsThroughKeysArena {}).SameSurface
        (Resolver.bindModule { ast := setsThroughKeysArena, keys := .resolved } (start {})) ∧
      (ofAst setsThroughKeysArena {}).graph.WithLiterals
        (Resolver.bindModule { ast := setsThroughKeysArena, keys := .resolved }
          (start {})).graph := by
  have hlower : Estree.lower setsThroughKeys = .ok setsThroughKeysArena := by rfl
  have hplain : setsThroughKeysArena.PlainKeys := by
    intro id base property hnode
    have hne : setsThroughKeysArena.node id ≠ .other "" := by simp [hnode]
    have hid : id < 15 := Ast.lt_size_of_node_ne hne
    interval_cases id <;> cases hnode <;> rfl
  exact ⟨hlower, hplain, by decide +kernel, by decide +kernel,
    resolved_keys_sameSurface _ _ hlower hplain {}⟩

end Analysis

end ExportSurface

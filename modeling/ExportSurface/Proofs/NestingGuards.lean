/-
The two nesting limits agree.

Lowering a decoded tree and resolving the arena that comes out of it are both limited to
`maxNesting` levels, but they count differently: lowering counts every node, statements and
parentheses included, and the resolver counts its own calls.  Still the resolver never gets to its
limit in a lowered program.  A node lowered with `levels` levels to go has only unsupported nodes
`levels` references below it (`FitsIn`), each call of the resolver goes at least one reference down,
and the first call is already below a statement.  The one exception is a declared function, which is
resolved itself; but of a function nothing more is resolved.

Main definitions:

* `FitsIn` — a node has only unsupported nodes so many references below it;
* `Ast.Descends` — a chain of references;
* `Task.StaysWithin` — a task that does not get to the limit.

Main results:

* `Estree.lowerNode_fitsIn` — a lowered node fits into the levels it was lowered with;
* `Asks.staysWithin`, `Task.StaysWithin.run` — what such a task asks for does not get there either,
  and the limit is not reported;
* `Analysis.lower_no_nestingLimit` — **binding a lowered program never reports the nesting limit**.
-/

import ExportSurface.Analysis
import ExportSurface.Proofs.ArenaLayout
import ExportSurface.Proofs.SafeTasks
import ExportSurface.Proofs.TreeSchema

set_option autoImplicit false

namespace ExportSurface

/-! ### Nodes that fit into some levels -/

/-- The node is in the arena, and so many references below it there are only unsupported nodes. -/
def FitsIn (nodes : Array SpannedNode) : Nat → NodeId → Prop
  | 0, id => ∃ n kind, nodes[id]? = some n ∧ n.node = .other kind
  | levels + 1, id =>
      ∃ n, nodes[id]? = some n ∧ ∀ r ∈ n.node.references, FitsIn nodes levels r

theorem getElem?_push {nodes : Array SpannedNode} {last : SpannedNode} (id : NodeId)
    (n : SpannedNode) (hn : nodes[id]? = some n) : (nodes.push last)[id]? = some n := by
  have hid : id ≠ nodes.size := Nat.ne_of_lt (Array.getElem?_eq_some_iff.1 hn).1
  rw [Array.getElem?_push, if_neg hid, hn]

namespace FitsIn

variable {nodes nodes' : Array SpannedNode} {levels : Nat} {id : NodeId}

theorem succ (h : FitsIn nodes levels id) : FitsIn nodes (levels + 1) id := by
  induction levels generalizing id with
  | zero =>
      obtain ⟨n, kind, hn, hkind⟩ := h
      exact ⟨n, hn, by simp [hkind, Node.references]⟩
  | succ levels ih =>
      obtain ⟨n, hn, hpart⟩ := h
      exact ⟨n, hn, fun r hr => ih (hpart r hr)⟩

/-- A node does not change when others are appended. -/
theorem mono (hnodes : ∀ (id : NodeId) n, nodes[id]? = some n → nodes'[id]? = some n)
    (h : FitsIn nodes levels id) : FitsIn nodes' levels id := by
  induction levels generalizing id with
  | zero =>
      obtain ⟨n, kind, hn, hkind⟩ := h
      exact ⟨n, kind, hnodes id n hn, hkind⟩
  | succ levels ih =>
      obtain ⟨n, hn, hpart⟩ := h
      exact ⟨n, hnodes id n hn, fun r hr => ih (hpart r hr)⟩

/-- A node whose parts are there and fit into some levels fits into one more. -/
theorem push {node : Node} (span : Span) (h : ∀ p ∈ node.references, FitsIn nodes levels p) :
    FitsIn (nodes.push ⟨node, span⟩) (levels + 1) nodes.size :=
  ⟨⟨node, span⟩, Array.getElem?_push_size, fun p hp => (h p hp).mono getElem?_push⟩

end FitsIn

namespace Ast

variable {ast : Ast} {levels : Nat} {id : NodeId}

theorem node_eq_of_getElem? {n : SpannedNode} (hn : ast.nodes[id]? = some n) :
    ast.node id = n.node := by
  rw [node, hn]

theorem part_fitsIn (h : FitsIn ast.nodes (levels + 1) id) :
    ∀ r ∈ (ast.node id).references, FitsIn ast.nodes levels r := by
  obtain ⟨n, hn, hpart⟩ := h
  rwa [node_eq_of_getElem? hn]

theorem other_of_fitsIn (h : FitsIn ast.nodes 0 id) : ∃ kind, ast.node id = .other kind := by
  obtain ⟨n, kind, hn, hkind⟩ := h
  exact ⟨kind, by rw [node_eq_of_getElem? hn, hkind]⟩

theorem references_of_fitsIn (h : FitsIn ast.nodes 0 id) : (ast.node id).references = [] := by
  obtain ⟨kind, hkind⟩ := other_of_fitsIn h
  rw [hkind, Node.references]

/-- The parts of a node fit into the levels that the node fits into. -/
theorem fitsIn_closed (levels : Nat) (id : NodeId) (h : FitsIn ast.nodes levels id) :
    ∀ r ∈ (ast.node id).references, FitsIn ast.nodes levels r := by
  cases levels with
  | zero => simp [references_of_fitsIn h]
  | succ levels => exact fun r hr => (part_fitsIn h r hr).succ

/-- A chain of `k` references leads from one node to another. -/
def Descends (ast : Ast) : Nat → NodeId → NodeId → Prop
  | 0, top, bottom => top = bottom
  | k + 1, top, bottom => ∃ r ∈ (ast.node top).references, ast.Descends k r bottom

/-- Chains from a node are no longer than the levels it fits into, and the longest ones end at
unsupported nodes. -/
theorem Descends.le_of_fitsIn {k : Nat} {bottom : NodeId} (h : ast.Descends k id bottom)
    (hfits : FitsIn ast.nodes levels id) :
    k ≤ levels ∧ (k = levels → ∃ kind, ast.node bottom = .other kind) := by
  induction k generalizing id levels with
  | zero =>
      obtain rfl : id = bottom := h
      refine ⟨Nat.zero_le levels, ?_⟩
      rintro rfl
      exact other_of_fitsIn hfits
  | succ k ih =>
      obtain ⟨r, hr, hbelow⟩ := h
      cases levels with
      | zero => simp [references_of_fitsIn hfits] at hr
      | succ levels =>
          obtain ⟨hle, hend⟩ := ih hbelow (part_fitsIn hfits r hr)
          exact ⟨Nat.succ_le_succ hle, fun heq => hend (Nat.succ.inj heq)⟩

end Ast

/-! ### Lowering -/

namespace Estree

theorem Lowers.fitsIn {recur : Lower} {levels : Nat}
    (happends : ∀ v b id b', recur v b = .ok (id, b') → Appends b id b')
    (hfits : ∀ v b id b', recur v b = .ok (id, b') → FitsIn b'.nodes levels id)
    {b b' : AstBuilder} {ids : List NodeId} (h : Lowers recur b ids b') :
    ∀ id ∈ ids, FitsIn b'.nodes levels id := by
  induction h with
  | nil => exact nofun
  | cons hv hrest ih =>
      intro id hid
      rcases List.mem_cons.1 hid with rfl | hid
      · exact (hfits _ _ _ _ hv).mono fun _ _ hn => (hrest.grows happends).getElem? hn
      · exact ih id hid

/-- **A lowered node fits into the levels it was lowered with.** -/
theorem lowerNode_fitsIn (levels : Nat) (v : Json) (b : AstBuilder) (id : NodeId) (b' : AstBuilder)
    (h : lowerNode levels v b = .ok (id, b')) : FitsIn b'.nodes levels id := by
  induction levels generalizing v b id b' with
  | zero =>
      obtain ⟨kind, -, h⟩ := bind_eq_ok.1 h
      cases h
      exact ⟨_, kind, Array.getElem?_push_size, rfl⟩
  | succ levels ih =>
      obtain ⟨ids, b₁, hparts, hclose⟩ := lowerWith_cases h
      have hfits := hparts.fitsIn (lowerNode_appends levels) ih
      rcases hclose with ⟨node, span, rfl, hpush⟩ | ⟨rfl, rfl⟩
      · cases hpush
        exact .push span hfits
      · exact (hfits id (List.mem_singleton_self id)).succ

/-- The statements of a lowered program fit into the limit. -/
theorem fitsIn_of_lower {v : Json} {ast : Ast} (h : lower v = .ok ast) :
    ∃ body, ast.node ast.program = .program body ∧ ∀ x ∈ body, FitsIn ast.nodes maxNesting x := by
  obtain ⟨body, b, hbody, rfl⟩ := lower_eq_ok h
  have hfits := hbody.fitsIn (lowerNode_appends maxNesting) (lowerNode_fitsIn maxNesting)
  exact ⟨body, Ast.node_eq_of_getElem? (n := ⟨.program body, _⟩) Array.getElem?_push_size,
    fun x hx => FitsIn.mono getElem?_push (hfits x hx)⟩

end Estree

/-! ### Tasks that stay within the limit -/

/-- A node can be resolved within so many levels: it fits into fewer, or it is a declared function,
in which nothing is resolved. -/
def Ast.Resolves (ast : Ast) (levels : Nat) (id : NodeId) : Prop :=
  (∃ k < levels, FitsIn ast.nodes k id) ∨
    0 < levels ∧ ∃ name, ast.node id = .functionDeclaration name

/-- The passes come to what fits into all levels; they start from a program of such statements. -/
def Ast.Passes (ast : Ast) (id : NodeId) : Prop :=
  FitsIn ast.nodes maxNesting id ∨
    ∃ body, ast.node id = .program body ∧ ∀ x ∈ body, FitsIn ast.nodes maxNesting x

/-- A task does not get to the limit. -/
def Task.StaysWithin (ast : Ast) : Task → Prop
  | resolve levels id _ _ => ast.Resolves levels id
  | bind levels target value _ => ∀ n ∈ target :: value.toList, ast.Resolves levels n
  | declare _ id | assign _ id => ast.Passes id

section within

variable {ast : Ast} {levels : Nat} {id p : NodeId}

/-- Below a node there is one level less to go. -/
theorem Ast.Resolves.below (h : ast.Resolves (levels + 1) id)
    (hid : ∀ name, ast.node id ≠ .functionDeclaration name)
    (hp : p ∈ (ast.node id).references) : ast.Resolves levels p := by
  rcases h with ⟨k, hk, hfits⟩ | ⟨-, name, hnode⟩
  · cases k with
    | zero => simp [references_of_fitsIn hfits] at hp
    | succ k => exact .inl ⟨k, Nat.lt_of_succ_lt_succ hk, part_fitsIn hfits p hp⟩
  · exact absurd hnode (hid name)

/-- The parts of a target are resolved with the levels of the target. -/
theorem Ast.Resolves.part (h : ast.Resolves levels id)
    (hid : ∀ name, ast.node id ≠ .functionDeclaration name)
    (hp : p ∈ (ast.node id).references) : ast.Resolves levels p := by
  rcases h with ⟨k, hk, hfits⟩ | ⟨-, name, hnode⟩
  · exact .inl ⟨k, hk, fitsIn_closed k id hfits p hp⟩
  · exact absurd hnode (hid name)

theorem Ast.Passes.part (h : ast.Passes id) (hp : p ∈ (ast.node id).references) :
    ast.Passes p := by
  rcases h with hfits | ⟨body, hbody, hfits⟩
  · exact .inl (fitsIn_closed maxNesting id hfits p hp)
  · rw [hbody] at hp
    exact .inl (hfits p hp)

/-- What is below a statement is resolved with all levels. -/
theorem Ast.Passes.resolves (h : ast.Passes id) (hid : ∀ body, ast.node id ≠ .program body)
    (hp : p ∈ (ast.node id).references) : ast.Resolves maxNesting p := by
  rcases h with hfits | ⟨body, hbody, -⟩
  · exact .inl ⟨255, by decide, part_fitsIn hfits p hp⟩
  · exact absurd hbody (hid body)

end within

/-- **Whatever is asked for stays within the limit as well.** -/
theorem Asks.staysWithin {r : Resolver} {b₀ b : Bindings} {t t' : Task} (h : Asks r b₀ t t' b)
    (ht : t.StaysWithin r.ast) : t'.StaysWithin r.ast := by
  -- A declarator is bound to its value.
  have hdeclarator : ∀ {x : NodeId} {kind : DeclarationKind} {before after : List Declarator}
      {d : Declarator}, r.ast.node x = .variableDeclaration kind (before ++ d :: after) →
      ∀ n ∈ d.target :: d.init.toList, n ∈ (r.ast.node x).references := by
    intro x kind before after d hx n hn
    rw [hx]
    exact List.mem_flatMap.2 ⟨d, by simp, hn⟩
  cases h with
  | base hnode | key hnode _ | entry hnode _ =>
      exact Ast.Resolves.below ht (by simp [hnode]) (by simp [hnode, Node.references])
  | assignment hnode =>
      refine fun n hn => Ast.Resolves.below ht (by simp [hnode]) ?_
      rw [hnode]
      exact hn
  | classBody hnode _ | targetBase hnode | targetKey hnode _ =>
      exact (ht _ (List.mem_cons_self ..)).part (by simp [hnode]) (by simp [hnode, Node.references])
  | function _ _ => exact ht _ (List.mem_cons_self ..)
  | named _ => exact ht _ (by simp)
  | member _ _ _ _ => exact ht _ (by simp)
  | declareStatement hnode | declareExpression hnode | declareExported hnode | statement hnode
  | expression hnode | specifier hnode =>
      exact Ast.Passes.part ht (by simp [hnode, Node.references])
  | defaultValue hnode _ | source hnode =>
      exact Ast.Passes.resolves ht (by simp [hnode]) (by simp [hnode, Node.references])
  | hoisted hnode =>
      intro n hn
      refine Ast.Passes.resolves ht (by simp [hnode]) (hdeclarator hnode n ?_)
      exact List.mem_cons.2 (.inl (List.mem_singleton.1 hn))
  | declarator hnode =>
      exact fun n hn => Ast.Passes.resolves ht (by simp [hnode]) (hdeclarator hnode n hn)
  | stored hnode | classDeclaration hnode | exportedDefault hnode | exported hnode _ =>
      refine fun n hn => Ast.Passes.resolves ht (by simp [hnode]) ?_
      simp_all [Node.references]
  | @functionDeclaration fuel id name hnode _ =>
      intro n hn
      rcases List.mem_cons.1 hn with rfl | hn
      · exact Ast.Passes.resolves ht (by simp [hnode]) (by simp [hnode, Node.references])
      · obtain rfl := List.mem_singleton.1 hn
        exact .inr ⟨by decide, some name, hnode⟩
  | @exportedDeclarator fuel id x specifiers kind before after d hnode hx =>
      have hpart : r.ast.Resolves maxNesting x :=
        Ast.Passes.resolves ht (by simp [hnode]) (by simp [hnode, Node.references])
      exact fun n hn => hpart.part (by simp [hx]) (hdeclarator hx n hn)

/-- The nesting limit has not been reported. -/
def Bindings.WithinLimit (b : Bindings) : Prop := ∀ n, Diagnostic.nestingLimit n ∉ b.diagnostics

/-- Such a task does not report the limit: only resolving with no levels left does. -/
theorem Change.withinLimit {r : Resolver} {knows : Bindings → SymbolId → Prop} {b₀ b b' : Bindings}
    {t : Task} (h : Change r knows b₀ b t b') (ht : t.StaysWithin r.ast) (hb : b.WithinLimit) :
    b'.WithinLimit := by
  cases h with
  | limit =>
      rcases ht with ⟨k, hk, -⟩ | ⟨hlt, -⟩
      · exact absurd hk (Nat.not_lt_zero k)
      · exact absurd hlt (Nat.lt_irrefl 0)
  | report hd _ =>
      intro n hn
      rcases Array.mem_push.1 hn with hn | hn
      · exact hb n hn
      · exact hd n hn.symm
  | _ => exact hb

/-- **A task that stays within the limit does not report it.** -/
theorem Task.StaysWithin.run {r : Resolver} {t : Task} (ht : t.StaysWithin r.ast) {b : Bindings}
    (hb : b.WithinLimit) : (t.run r b).2.WithinLimit := by
  let inv : Invariant r :=
    { allows := fun t _ => t.StaysWithin r.ast
      holds := Bindings.WithinLimit
      knows := fun _ _ => True
      known := .any _
      asked := fun hway hask => hask.staysWithin hway.allowed
      changed := fun hway hchange => hchange.withinLimit hway.allowed hway.holds }
  exact (inv.run (t := t) ht hb).1

/-! ### Both limits -/

namespace Analysis

/-- **The two limits agree.**  Binding a lowered program never reports the nesting limit.  Only
lowering cuts off: a node that it gets to with no levels left becomes a single unsupported node, and
so chains of references from a statement are at most as long as the limit, and those of this length
end at unsupported nodes. -/
theorem lower_no_nestingLimit (v : Json) (ast : Ast) (h : Estree.lower v = .ok ast)
    (options : AnalysisOptions) :
    (∀ n, Diagnostic.nestingLimit n ∉ (ofAst ast options).diagnostics) ∧
    (∀ w b id b', Estree.lowerNode 0 w b = .ok (id, b') →
      ∃ kind span, b'.nodes = b.nodes.push ⟨.other kind, span⟩ ∧ id = b.nodes.size) ∧
    ∀ x ∈ ast.body, ∀ k n, ast.Descends k x n →
      k ≤ maxNesting ∧ (k = maxNesting → ∃ kind, ast.node n = .other kind) := by
  obtain ⟨body, hbody, hfits⟩ := Estree.fitsIn_of_lower h
  refine ⟨?_, ?_, ?_⟩
  · have hpasses : ast.Passes ast.program := .inr ⟨body, hbody, hfits⟩
    have hstart : (start options).WithinLimit := by simp [Bindings.WithinLimit, start]
    have hdeclared : (Resolver.declare { ast } ast.program (start options)).WithinLimit :=
      Task.StaysWithin.run (r := { ast }) (t := .declare _ ast.program) hpasses hstart
    exact Task.StaysWithin.run (r := { ast }) (t := .assign _ ast.program) hpasses hdeclared
  · intro w b id b' hw
    obtain ⟨kind, -, hw⟩ := Estree.bind_eq_ok.1 hw
    cases hw
    exact ⟨kind, Estree.spanOf w, rfl, rfl⟩
  · intro x hx k n hdescends
    rw [Ast.body, hbody] at hx
    exact hdescends.le_of_fitsIn (hfits x hx)

/-- The tree of `f.p.p` … with `n` accesses. -/
def accesses : Nat → Json
  | 0 => Estree.named "f"
  | n + 1 =>
      Estree.typed "MemberExpression" [("object", accesses n), ("property", Estree.named "p")]

theorem typed_ne_null (kind : String) (fields : List (String × Json)) :
    Estree.typed kind fields ≠ .null := Json.noConfusion

theorem accesses_ne_null (n : Nat) : accesses n ≠ .null := by
  cases n with
  | zero => exact typed_ne_null _ _
  | succ n => exact typed_ne_null _ _

theorem named_wellShaped (d : Nat) (name : String) : Estree.WellShaped d (Estree.named name) := by
  rw [Estree.WellShaped]
  exact ⟨"Identifier", rfl, fun _ => ⟨name, rfl⟩⟩

theorem accesses_wellShaped (d n : Nat) : Estree.WellShaped d (accesses n) := by
  induction n generalizing d with
  | zero => exact named_wellShaped d "f"
  | succ n ih =>
      have hproperty := named_wellShaped (d + 1) "p"
      rw [Estree.WellShaped]
      exact ⟨"MemberExpression", rfl, fun _ =>
        ⟨⟨accesses n, rfl, accesses_ne_null n, ih (d + 1)⟩,
          Estree.named "p", rfl, typed_ne_null _ _, hproperty⟩⟩

/-- The tree of `x = f.p.p` … with `n` accesses. -/
def assignsAccesses (n : Nat) : Json :=
  Estree.typed "Program" [("body", .array [Estree.typed "ExpressionStatement" [("expression",
    Estree.typed "AssignmentExpression" [("left", Estree.named "x"), ("right", accesses n)])]])]

theorem assignsAccesses_accepted (n : Nat) :
    ∃ ast, Estree.lower (assignsAccesses n) = .ok ast := by
  refine (Estree.lower_decides _).2 ⟨rfl, _, rfl, ?_⟩
  intro statement hstatement
  obtain rfl := List.mem_singleton.1 hstatement
  rw [Estree.WellShaped]
  refine ⟨"ExpressionStatement", rfl, fun _ => ⟨_, rfl, typed_ne_null _ _, ?_⟩⟩
  rw [Estree.WellShaped]
  exact ⟨"AssignmentExpression", rfl, fun _ => .inr
    ⟨⟨_, rfl, typed_ne_null _ _, named_wellShaped 2 "x"⟩,
      accesses n, rfl, accesses_ne_null n, accesses_wellShaped 2 n⟩⟩

theorem assignsAccesses_within_limit :
    ∃ ast, Estree.lower (assignsAccesses 300) = .ok ast ∧
      ∀ n, Diagnostic.nestingLimit n ∉ (ofAst ast {}).diagnostics := by
  obtain ⟨ast, hlower⟩ := assignsAccesses_accepted 300
  exact ⟨ast, hlower, (lower_no_nestingLimit _ ast hlower {}).1⟩

end Analysis

end ExportSurface

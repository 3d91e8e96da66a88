/-
Lowering a decoded tree lays its nodes out in post-order.

The nodes that one call of the lowering appends form a stretch of the arena: the stretches of the
parts, one after the other, and then the node itself, if it gets one.  Inside such a stretch a node
refers to earlier nodes only, and all nodes but the last are referred to once.  Both are kept when
stretches are put one after the other (`Stretch.append`) and when a node is pushed that refers to
everything still open (`Stretch.push`), and lowering does nothing else.

Main definitions:

* `Stretch` — some nodes of an arena, with the positions that nothing in them refers to;
* `AstBuilder.Grows` — a builder goes on by such a stretch;
* `Ast.referenceCount` — how often a position is referred to.

Main results:

* `Estree.lowerNode_appends` — lowering a node appends a stretch that ends with it;
* `Estree.lower_postorder` — **a lowered program is in post-order**: every node refers to earlier
  ones, and every node but the program is referred to exactly once.
-/

import ExportSurface.Proofs.LoweringSteps
import Mathlib.Data.List.Perm.Basic

set_option autoImplicit false

namespace ExportSurface

/-! ### Stretches of an arena -/

/-- The positions that some nodes refer to. -/
def referencesOf (block : List SpannedNode) : List NodeId :=
  block.flatMap fun n => n.node.references

/-- Nodes that stand in an arena from the position `start` on.  They refer to earlier nodes, and
each of them is referred to once, or else it is one of the roots. -/
structure Stretch (start : Nat) (roots : List NodeId) (block : List SpannedNode) : Prop where
  backward : ∀ i n, block[i]? = some n → ∀ r ∈ n.node.references, (r : Nat) < start + i
  once : (referencesOf block ++ roots).Perm (List.range' start block.length)

namespace Stretch

variable {start : Nat} {roots roots' : List NodeId} {block block' : List SpannedNode}

theorem nil : Stretch start [] [] := ⟨nofun, .refl _⟩

theorem append (h : Stretch start roots block)
    (h' : Stretch (start + block.length) roots' block') :
    Stretch start (roots ++ roots') (block ++ block') where
  backward := by
    intro i n hn r hr
    rcases Nat.lt_or_ge i block.length with hi | hi
    · rw [List.getElem?_append_left hi] at hn
      exact h.backward i n hn r hr
    · rw [List.getElem?_append_right hi] at hn
      have hlt := h'.backward _ n hn r hr
      omega
  once := by
    have hsplit : (referencesOf (block ++ block') ++ (roots ++ roots')).Perm
        ((referencesOf block ++ roots) ++ (referencesOf block' ++ roots')) := by
      simp only [referencesOf, List.flatMap_append, List.append_assoc]
      refine List.Perm.append_left _ ?_
      rw [← List.append_assoc, ← List.append_assoc]
      exact List.perm_append_comm.append_right _
    rw [List.length_append, ← List.range'_append_1]
    exact hsplit.trans (h.once.append h'.once)

/-- A node that refers to all roots becomes the only root. -/
theorem push {n : SpannedNode} (h : Stretch start n.node.references block) :
    Stretch start [start + block.length] (block ++ [n]) where
  backward := by
    intro i m hm r hr
    rcases Nat.lt_or_ge i block.length with hi | hi
    · rw [List.getElem?_append_left hi] at hm
      exact h.backward i m hm r hr
    · rw [List.getElem?_append_right hi, List.getElem?_singleton] at hm
      obtain ⟨-, ⟨⟩⟩ := Option.ite_none_right_eq_some.1 hm
      have hmem := h.once.mem_iff.1 (List.mem_append_right _ hr)
      rw [List.mem_range'_1] at hmem
      omega
  once := by
    have hrefs : referencesOf (block ++ [n]) = referencesOf block ++ n.node.references := by
      simp [referencesOf]
    rw [hrefs, List.length_append, List.length_singleton, List.range'_1_concat]
    exact h.once.append_right _

/-- With a root, a stretch is not empty. -/
theorem ne_nil {root : NodeId} (h : Stretch start [root] block) : block ≠ [] := by
  rintro rfl
  exact absurd h.once.length_eq (by simp [referencesOf])

/-- How often the nodes of a stretch with one root refer to one of them. -/
theorem count_referencesOf {root : NodeId} (h : Stretch start [root] block) {id : NodeId}
    (hstart : start ≤ id) (hid : id < start + block.length) :
    (referencesOf block).count id = if id = root then 0 else 1 := by
  have hcount := h.once.count_eq id
  rw [List.count_append, List.count_range_1', if_pos ⟨hstart, hid⟩, List.count_singleton] at hcount
  by_cases hroot : id = root
  · rw [hroot, beq_self_eq_true, if_pos rfl] at hcount
    rw [hroot, if_pos rfl]
    exact Nat.succ.inj hcount
  · rw [if_neg (by simpa using Ne.symm hroot)] at hcount
    rw [if_neg hroot]
    exact hcount

theorem childrenFirst {ast : Ast} (h : Stretch 0 roots ast.nodes.toList) : ast.ChildrenFirst := by
  intro id hid r hr
  have hn : ast.nodes[id]? = some ast.nodes[id] := Array.getElem?_eq_getElem hid
  rw [Ast.node, hn] at hr
  have hlt := h.backward id ast.nodes[id] (by rw [Array.getElem?_toList, hn]) r hr
  rwa [Nat.zero_add] at hlt

end Stretch

/-! ### Builders that go on -/

/-- A builder goes on by a stretch of nodes with the given roots. -/
def AstBuilder.Grows (b : AstBuilder) (roots : List NodeId) (b' : AstBuilder) : Prop :=
  ∃ block, b'.nodes.toList = b.nodes.toList ++ block ∧ Stretch b.nodes.size roots block

namespace AstBuilder.Grows

variable {b b₁ b' : AstBuilder} {roots roots' : List NodeId}

theorem refl : b.Grows [] b := ⟨[], by simp, .nil⟩

theorem trans (h : b.Grows roots b₁) (h' : b₁.Grows roots' b') : b.Grows (roots ++ roots') b' := by
  obtain ⟨block, hnodes, hblock⟩ := h
  obtain ⟨block', hnodes', hblock'⟩ := h'
  have hsize : b₁.nodes.size = b.nodes.size + block.length := by
    rw [← Array.length_toList, hnodes, List.length_append, Array.length_toList]
  rw [hsize] at hblock'
  exact ⟨block ++ block', by rw [hnodes', hnodes, List.append_assoc], hblock.append hblock'⟩

theorem push {node : Node} {span : Span} (h : b.Grows node.references b₁) :
    b.Grows [b₁.nodes.size] (b₁.pushSpanned node span).2 := by
  obtain ⟨block, hnodes, hblock⟩ := h
  have hsize : b₁.nodes.size = b.nodes.size + block.length := by
    rw [← Array.length_toList, hnodes, List.length_append, Array.length_toList]
  refine ⟨block ++ [⟨node, span⟩], ?_, ?_⟩
  · rw [pushSpanned, Array.toList_push, hnodes, List.append_assoc]
  · rw [hsize]
    exact hblock.push

/-- What was there is still there. -/
theorem getElem? (h : b.Grows roots b') {id : NodeId} {n : SpannedNode}
    (hn : b.nodes[id]? = some n) : b'.nodes[id]? = some n := by
  obtain ⟨block, hnodes, -⟩ := h
  rw [← Array.getElem?_toList] at hn ⊢
  obtain ⟨hid, -⟩ := List.getElem?_eq_some_iff.1 hn
  rw [hnodes, List.getElem?_append_left hid, hn]

end AstBuilder.Grows

namespace Estree

/-- A lowering appends a stretch of nodes and answers the position of the last one. -/
structure Appends (b : AstBuilder) (id : NodeId) (b' : AstBuilder) : Prop where
  grows : b.Grows [id] b'
  last : id + 1 = b'.nodes.size

section lowering

variable {recur : Lower} {b b' : AstBuilder}

theorem Lowers.grows (hrec : ∀ v b id b', recur v b = .ok (id, b') → Appends b id b')
    {ids : List NodeId} (h : Lowers recur b ids b') : b.Grows ids b' := by
  induction h with
  | nil => exact .refl
  | cons hv _ ih => exact (hrec _ _ _ _ hv).grows.trans ih

theorem appends_push {node : Node} {b₁ : AstBuilder} (span : Span)
    (h : b.Grows node.references b₁) :
    Appends b (b₁.pushSpanned node span).1 (b₁.pushSpanned node span).2 :=
  ⟨h.push, by simp [AstBuilder.pushSpanned]⟩

theorem lowerWith_appends (hrec : ∀ v b id b', recur v b = .ok (id, b') → Appends b id b')
    {v : Json} {id : NodeId} (h : lowerWith recur v b = .ok (id, b')) : Appends b id b' := by
  obtain ⟨ids, b₁, hparts, hclose⟩ := lowerWith_cases h
  rcases hclose with ⟨node, span, rfl, hpush⟩ | ⟨rfl, rfl⟩
  · have happends := appends_push span (hparts.grows hrec)
    rwa [hpush] at happends
  · cases hparts with
    | cons hv hrest =>
        cases hrest
        exact hrec _ _ _ _ hv

/-- **Lowering a node appends a stretch that ends with it.** -/
theorem lowerNode_appends (levels : Nat) (v : Json) (b : AstBuilder) (id : NodeId) (b' : AstBuilder)
    (h : lowerNode levels v b = .ok (id, b')) : Appends b id b' := by
  induction levels generalizing v b id b' with
  | zero =>
      obtain ⟨kind, -, h⟩ := bind_eq_ok.1 h
      have happends : Appends b (b.pushSpanned (.other kind) (spanOf v)).1
          (b.pushSpanned (.other kind) (spanOf v)).2 := appends_push (spanOf v) .refl
      rwa [Except.ok.inj h] at happends
  | succ levels ih => exact lowerWith_appends ih h

end lowering

end Estree

/-! ### A whole program -/

/-- How often the nodes of a tree refer to a position. -/
def Ast.referenceCount (ast : Ast) (id : NodeId) : Nat :=
  (referencesOf ast.nodes.toList).count id

namespace Estree

/-- The nodes of a program: those of its statements, and then the program itself. -/
theorem lower_eq_ok {v : Json} {ast : Ast} (h : lower v = .ok ast) :
    ∃ body b, Lowers (lowerNode maxNesting) {} body b ∧
      ast = (b.atLine (lineOf v "start")).program body := by
  obtain ⟨kind, -, h⟩ := bind_eq_ok.1 h
  split at h
  · obtain ⟨items, -, h⟩ := bind_eq_ok.1 h
    obtain ⟨⟨body, b⟩, hbody, h⟩ := bind_eq_ok.1 h
    exact ⟨body, b, .of_nodes hbody, (Except.ok.inj h).symm⟩
  · cases h

/-- A whole arena is one stretch whose root is the program. -/
theorem stretch_of_lower {v : Json} {ast : Ast} (h : lower v = .ok ast) :
    Stretch 0 [ast.program] ast.nodes.toList ∧ ast.program + 1 = ast.size ∧
      ∃ body, ast.node ast.program = .program body := by
  obtain ⟨body, b, hbody, rfl⟩ := lower_eq_ok h
  have hgrows : AstBuilder.Grows {} [b.nodes.size]
      (b.pushSpanned (.program body) ⟨lineOf v "start", lineOf v "start"⟩).2 :=
    (hbody.grows (lowerNode_appends maxNesting)).push
  obtain ⟨block, hnodes, hblock⟩ := hgrows
  refine ⟨?_, ?_, body, ?_⟩
  · rw [List.nil_append] at hnodes
    exact hnodes ▸ hblock
  · exact (Array.size_push _).symm
  · simp [Ast.node, AstBuilder.program, AstBuilder.push, AstBuilder.pushSpanned, AstBuilder.atLine]

/-- **A lowered program is in post-order.**  Whatever node is lowered on the way, from whatever
state, appends a stretch of nodes that is not empty, after the nodes that were there, and is the
last node of the stretch; and in the whole arena every node refers to earlier nodes, every node but
the program is referred to once, the program is not referred to, and it stands at the end. -/
theorem lower_postorder (v : Json) (ast : Ast) (h : lower v = .ok ast) :
    (∀ levels w b id b', lowerNode levels w b = .ok (id, b') →
      ∃ block : List SpannedNode, block ≠ [] ∧ b'.nodes.toList = b.nodes.toList ++ block ∧
        id + 1 = b'.nodes.size) ∧
    ast.ChildrenFirst ∧
    (∀ id < ast.size, ast.referenceCount id = if id = ast.program then 0 else 1) ∧
    ast.program + 1 = ast.size ∧ ∃ body, ast.node ast.program = .program body := by
  obtain ⟨hstretch, hlast, hprogram⟩ := stretch_of_lower h
  refine ⟨?_, hstretch.childrenFirst, ?_, hlast, hprogram⟩
  · intro levels w b id b' hw
    obtain ⟨⟨block, hnodes, hblock⟩, hid⟩ := lowerNode_appends levels w b id b' hw
    exact ⟨block, hblock.ne_nil, hnodes, hid⟩
  · intro id hid
    refine hstretch.count_referencesOf (Nat.zero_le id) ?_
    rw [Nat.zero_add, Array.length_toList]
    exact hid

/-- A node of a decoded tree. -/
def typed (kind : String) (fields : List (String × Json)) : Json :=
  .object (("type", .string kind) :: fields)

def named (name : String) : Json := typed "Identifier" [("name", .string name)]

/-- The tree of `x = (y); class C { m() {} p; }`: the parentheses and the field get no node. -/
def assignsAndDeclares : Json :=
  typed "Program" [("body", .array [
    typed "ExpressionStatement" [("expression", typed "AssignmentExpression" [
      ("left", named "x"),
      ("right", typed "ParenthesizedExpression" [("expression", named "y")])])],
    typed "ClassDeclaration" [("id", named "C"), ("body", typed "ClassBody" [("body", .array [
      typed "MethodDefinition" [("key", named "m"), ("value", typed "FunctionExpression" [])],
      typed "PropertyDefinition" [("key", named "p")]])])]])]

def assignsAndDeclaresArena : Ast where
  nodes := ([.identifier "x", .identifier "y", .assignment 0 1, .expressionStatement 2,
    .identifier "C", .identifier "m", .functionExpression none, .classBody [⟨5, 6, false⟩],
    .classDeclaration (some 4) 7, .program [3, 8]].map fun n => ⟨n, ⟨0, 0⟩⟩).toArray
  program := 9

theorem assignsAndDeclares_postorder :
    lower assignsAndDeclares = .ok assignsAndDeclaresArena ∧
      assignsAndDeclaresArena.ChildrenFirst ∧
      assignsAndDeclaresArena.referenceCount 1 = 1 ∧
      assignsAndDeclaresArena.referenceCount 9 = 0 := by
  have hlower : lower assignsAndDeclares = .ok assignsAndDeclaresArena := by rfl
  obtain ⟨-, hfirst, hcount, -⟩ := lower_postorder _ _ hlower
  exact ⟨hlower, hfirst, hcount 1 (by decide), hcount 9 (by decide)⟩

end Estree

end ExportSurface

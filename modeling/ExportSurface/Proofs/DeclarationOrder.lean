/-
The order of named declarations does not matter.

A named function or class makes a few symbols and stores the first of them under its name.  How
these symbols look and lead to each other depends on the declaration alone; only their positions
depend on what was there before.  So two declarations of different names that follow each other can
change places: the two runs end in graphs that differ by an exchange of two neighbouring blocks of
symbols, and from there on they mirror each other (`ExportSurface/Proofs/Mirroring.lean`), whatever
statements follow.

Main definitions:

* `SymbolBlock` — symbols with links among them, apart from their positions;
* `Bindings.Appended`, `Bindings.Added` — a state after a block was added, without and with a name;
* `Bindings.AddedBoth` — a state after two named blocks were added;
* `swapBlocks` — the exchange of two neighbouring blocks of positions;
* `Ast.DeclaresNamed` — a named function, or a named class with a class body;
* `Ast.withBody` — a tree with other top-level statements.

Main results:

* `Resolver.exists_block` — **a named declaration adds a block that depends on the tree only**;
* `Bindings.AddedBoth.mirrors` — **two named blocks can be added in either order**;
* `Analysis.swap_declarations_sameSurface` — **two neighbouring declarations can change places**.
-/

import ExportSurface.Proofs.DeclaredExports
import ExportSurface.Proofs.Mirroring
import Mathlib.Tactic.SplitIfs

set_option autoImplicit false

namespace ExportSurface

open SymbolGraph (root)

/-! ### Blocks of symbols -/

/-- Symbols that are added together: how they look, and which names lead from one to another. -/
structure SymbolBlock where
  size : Nat
  face : Nat → Symbol
  link : Nat → String → Option Nat
  /-- Links stay in the block. -/
  link_lt : ∀ i key j, link i key = some j → j < size

namespace SymbolBlock

def empty : SymbolBlock where
  size := 0
  face := fun _ => .placeholder
  link := fun _ _ => none
  link_lt := by simp

/-- One more symbol, without links. -/
def push (p : SymbolBlock) (s : Symbol) : SymbolBlock where
  size := p.size + 1
  face := fun i => if i = p.size then s.face else p.face i
  link := fun i key => if i < p.size then p.link i key else none
  link_lt := by
    intro i key j hj
    rw [Option.ite_none_right_eq_some] at hj
    exact Nat.lt_succ_of_lt (p.link_lt i key j hj.2)

@[simp] theorem size_push (p : SymbolBlock) (s : Symbol) : (p.push s).size = p.size + 1 := rfl

/-- A link between two symbols of the block. -/
def connect (p : SymbolBlock) (i : Nat) (key : String) (j : Nat) (hj : j < p.size) :
    SymbolBlock where
  size := p.size
  face := p.face
  link := fun n k => if n = i ∧ k = key then some j else p.link n k
  link_lt := by
    intro n k t ht
    split at ht
    · exact Option.some.inj ht ▸ hj
    · exact p.link_lt n k t ht

/-- One more symbol, with a link to it from the first one. -/
def addMember (p : SymbolBlock) (key : String) (s : Symbol) : SymbolBlock :=
  (p.push s).connect 0 key p.size (Nat.lt_succ_self p.size)

theorem size_addMember_pos (p : SymbolBlock) (key : String) (s : Symbol) :
    0 < (p.addMember key s).size :=
  Nat.succ_pos p.size

end SymbolBlock

/-- The later state is the earlier one with a block added. -/
structure Bindings.Appended (p : SymbolBlock) (b c : Bindings) : Prop where
  size_eq : c.graph.size = b.graph.size + p.size
  face_old : ∀ n < b.graph.size, (c.graph.get n).face = (b.graph.get n).face
  face_new : ∀ i < p.size, (c.graph.get (b.graph.size + i)).face = p.face i
  prop?_old : ∀ n < b.graph.size, ∀ key, c.graph.prop? n key = b.graph.prop? n key
  prop?_new : ∀ i < p.size, ∀ key,
    c.graph.prop? (b.graph.size + i) key = (p.link i key).map (b.graph.size + ·)
  diagnostics_eq : c.diagnostics = b.diagnostics

namespace Bindings.Appended

variable {p : SymbolBlock} {b c : Bindings}

theorem nothing (b : Bindings) : Appended .empty b b where
  size_eq := rfl
  face_old := fun _ _ => rfl
  face_new := fun i hi => absurd hi (Nat.not_lt_zero i)
  prop?_old := fun _ _ _ => rfl
  prop?_new := fun i hi => absurd hi (Nat.not_lt_zero i)
  diagnostics_eq := rfl

theorem alloc (h : Appended p b c) {s : Symbol} (hprops : s.props = .empty) :
    Appended (p.push s) b (c.alloc s).2 where
  size_eq := by
    rw [alloc_graph, SymbolGraph.size_alloc, h.size_eq, SymbolBlock.size_push]
    omega
  face_old := by
    intro n hn
    have hne : n ≠ c.graph.size := by
      have hsize := h.size_eq
      omega
    rw [alloc_graph, SymbolGraph.get_alloc, if_neg hne]
    exact h.face_old n hn
  face_new := by
    intro i hi
    rw [SymbolBlock.size_push] at hi
    rw [alloc_graph, SymbolGraph.get_alloc, h.size_eq, SymbolBlock.push]
    dsimp only
    by_cases hlast : i = p.size
    · rw [if_pos (by rw [hlast]), if_pos hlast]
    · rw [if_neg fun heq => hlast (Nat.add_left_cancel heq), if_neg hlast]
      exact h.face_new i (by omega)
  prop?_old := by
    intro n hn key
    rw [alloc_graph, SymbolGraph.prop?_alloc _ hprops]
    exact h.prop?_old n hn key
  prop?_new := by
    intro i _ key
    have hsize := h.size_eq
    rw [alloc_graph, SymbolGraph.prop?_alloc _ hprops, SymbolBlock.push]
    dsimp only
    by_cases hold : i < p.size
    · rw [if_pos hold]
      exact h.prop?_new i hold key
    · rw [if_neg hold]
      exact SymbolGraph.prop?_of_size_le (by omega) key
  diagnostics_eq := h.diagnostics_eq

theorem connect (h : Appended p b c) {i j : Nat} (hi : i < p.size) (hj : j < p.size)
    (key : String) :
    Appended (p.connect i key j hj) b
      (c.setProp (b.graph.size + i) key (b.graph.size + j)) where
  size_eq := by
    rw [setProp_graph, SymbolGraph.size_setProp]
    exact h.size_eq
  face_old := by
    intro n hn
    rw [setProp_graph, SymbolGraph.face_setProp]
    exact h.face_old n hn
  face_new := by
    intro n hn
    rw [setProp_graph, SymbolGraph.face_setProp]
    exact h.face_new n hn
  prop?_old := by
    intro n hn k
    have hne : n ≠ b.graph.size + i := by omega
    rw [setProp_graph, SymbolGraph.prop?_setProp, if_neg fun hboth => hne hboth.1.1]
    exact h.prop?_old n hn k
  prop?_new := by
    intro n hn k
    have hlt : b.graph.size + i < c.graph.size := by
      have hsize := h.size_eq
      omega
    rw [setProp_graph, SymbolGraph.prop?_setProp, SymbolBlock.connect]
    dsimp only
    by_cases hlink : n = i ∧ k = key
    · obtain ⟨rfl, rfl⟩ := hlink
      rw [if_pos ⟨⟨rfl, hlt⟩, rfl⟩, if_pos ⟨rfl, rfl⟩]
      rfl
    · rw [if_neg fun hboth => hlink ⟨Nat.add_left_cancel hboth.1.1, hboth.2⟩, if_neg hlink]
      exact h.prop?_new n hn k
  diagnostics_eq := h.diagnostics_eq

theorem addMember (h : Appended p b c) (key : String) {s : Symbol} (hprops : s.props = .empty) :
    Appended (p.addMember key s) b
      ((c.alloc s).2.setProp b.graph.size key c.graph.size) := by
  rw [h.size_eq]
  exact (h.alloc hprops).connect (Nat.succ_pos p.size) (Nat.lt_succ_self p.size) key

end Bindings.Appended

/-! ### Blocks with a name -/

namespace Bindings

/-- The later state is the earlier one with a block added, and a name that leads to it. -/
structure Added (p : SymbolBlock) (x : String) (b c : Bindings) : Prop where
  size_eq : c.graph.size = b.graph.size + p.size
  face_old : ∀ n < b.graph.size, (c.graph.get n).face = (b.graph.get n).face
  face_new : ∀ i < p.size, (c.graph.get (b.graph.size + i)).face = p.face i
  prop?_old : ∀ n < b.graph.size, ∀ key, c.graph.prop? n key =
    if n = root ∧ key = x then some b.graph.size else b.graph.prop? n key
  prop?_new : ∀ i < p.size, ∀ key,
    c.graph.prop? (b.graph.size + i) key = (p.link i key).map (b.graph.size + ·)
  diagnostics_eq : c.diagnostics = b.diagnostics

theorem Appended.added {p : SymbolBlock} {b c : Bindings} (h : Appended p b c)
    (hroot : root < b.graph.size) (x : String) :
    Added p x b (c.setProp root x b.graph.size) where
  size_eq := by
    rw [setProp_graph, SymbolGraph.size_setProp]
    exact h.size_eq
  face_old := by
    intro n hn
    rw [setProp_graph, SymbolGraph.face_setProp]
    exact h.face_old n hn
  face_new := by
    intro i hi
    rw [setProp_graph, SymbolGraph.face_setProp]
    exact h.face_new i hi
  prop?_old := by
    intro n hn key
    have hlt : root < c.graph.size := by
      rw [h.size_eq]
      exact Nat.lt_of_lt_of_le hroot (by omega)
    rw [setProp_graph, SymbolGraph.prop?_setProp, h.prop?_old n hn]
    simp only [hlt, and_true]
  prop?_new := by
    intro i hi key
    have hne : b.graph.size + i ≠ root := Nat.ne_of_gt (Nat.lt_of_lt_of_le hroot (by omega))
    rw [setProp_graph, SymbolGraph.prop?_setProp, if_neg fun hboth => hne hboth.1.1]
    exact h.prop?_new i hi key
  diagnostics_eq := h.diagnostics_eq

theorem Added.root_lt {p : SymbolBlock} {x : String} {b c : Bindings} (h : Added p x b c)
    (hroot : root < b.graph.size) : root < c.graph.size := by
  rw [h.size_eq]
  exact Nat.lt_of_lt_of_le hroot (by omega)

/-- The state after two named blocks were added, one after the other. -/
structure AddedBoth (p : SymbolBlock) (x : String) (q : SymbolBlock) (y : String)
    (b e : Bindings) : Prop where
  size_eq : e.graph.size = b.graph.size + p.size + q.size
  face_old : ∀ n < b.graph.size, (e.graph.get n).face = (b.graph.get n).face
  face_first : ∀ i < p.size, (e.graph.get (b.graph.size + i)).face = p.face i
  face_second : ∀ j < q.size, (e.graph.get (b.graph.size + p.size + j)).face = q.face j
  prop?_old : ∀ n < b.graph.size, ∀ key, e.graph.prop? n key =
    if n = root ∧ key = y then some (b.graph.size + p.size)
    else if n = root ∧ key = x then some b.graph.size else b.graph.prop? n key
  prop?_first : ∀ i < p.size, ∀ key,
    e.graph.prop? (b.graph.size + i) key = (p.link i key).map (b.graph.size + ·)
  prop?_second : ∀ j < q.size, ∀ key,
    e.graph.prop? (b.graph.size + p.size + j) key =
      (q.link j key).map (b.graph.size + p.size + ·)
  diagnostics_eq : e.diagnostics = b.diagnostics

theorem Added.both {p q : SymbolBlock} {x y : String} {b c e : Bindings} (h : Added p x b c)
    (hroot : root < b.graph.size) (h' : Added q y c e) : AddedBoth p x q y b e := by
  have hsize := h.size_eq
  have hold : ∀ n < b.graph.size, n < c.graph.size := by
    intro n hn
    omega
  refine ⟨?_, ?_, ?_, ?_, ?_, ?_, ?_, h'.diagnostics_eq.trans h.diagnostics_eq⟩
  · rw [h'.size_eq, hsize]
  · intro n hn
    rw [h'.face_old n (hold n hn), h.face_old n hn]
  · intro i hi
    rw [h'.face_old _ (by omega), h.face_new i hi]
  · intro j hj
    rw [← hsize, h'.face_new j hj]
  · intro n hn key
    rw [h'.prop?_old n (hold n hn), h.prop?_old n hn, hsize]
  · -- The second name is stored in the global scope, which is not in the first block.
    intro i hi key
    have hne : b.graph.size + i ≠ root := Nat.ne_of_gt (Nat.lt_of_lt_of_le hroot (by omega))
    rw [h'.prop?_old _ (by omega), if_neg fun hboth => hne hboth.1, h.prop?_new i hi]
  · intro j hj key
    rw [← hsize, h'.prop?_new j hj]

end Bindings

/-! ### Exchanging two blocks -/

/-- The exchange of the `k` positions from `start` on and the `l` positions after them. -/
def swapBlocks (start k l n : Nat) : Nat :=
  if n < start then n
  else if n < start + k then n + l
  else if n < start + k + l then n - k
  else n

section swapBlocks

variable {start k l : Nat}

theorem swapBlocks_old {n : Nat} (hn : n < start) : swapBlocks start k l n = n := by
  rw [swapBlocks, if_pos hn]

theorem swapBlocks_first {i : Nat} (hi : i < k) :
    swapBlocks start k l (start + i) = start + l + i := by
  unfold swapBlocks
  split_ifs <;> omega

theorem swapBlocks_second {j : Nat} (hj : j < l) :
    swapBlocks start k l (start + k + j) = start + j := by
  unfold swapBlocks
  split_ifs <;> omega

theorem swapBlocks_beyond (i : Nat) :
    swapBlocks start k l (start + k + l + i) = start + l + k + i := by
  unfold swapBlocks
  split_ifs <;> omega

theorem swapBlocks_lt {n : Nat} (hn : n < start + k + l) :
    swapBlocks start k l n < start + l + k := by
  unfold swapBlocks
  split_ifs <;> omega

/-- Exchanging the blocks back gives every position again. -/
theorem swapBlocks_swapBlocks (n : Nat) : swapBlocks start l k (swapBlocks start k l n) = n := by
  unfold swapBlocks
  split_ifs <;> omega

/-- Every position is before the blocks, in one of them, or beyond. -/
theorem block_cases (start k l n : Nat) : n < start ∨ (∃ i < k, n = start + i) ∨
    (∃ j < l, n = start + k + j) ∨ ∃ i, n = start + k + l + i := by
  by_cases h₁ : n < start
  · exact .inl h₁
  · by_cases h₂ : n < start + k
    · exact .inr (.inl ⟨n - start, by omega, by omega⟩)
    · by_cases h₃ : n < start + k + l
      · exact .inr (.inr (.inl ⟨n - (start + k), by omega, by omega⟩))
      · exact .inr (.inr (.inr ⟨n - (start + k + l), by omega⟩))

end swapBlocks

namespace Bindings.AddedBoth

variable {p q : SymbolBlock} {x y : String} {b e e' : Bindings}

theorem inRange (h : AddedBoth p x q y b e) (hrange : b.graph.InRange) (hp : 0 < p.size)
    (hq : 0 < q.size) : e.graph.InRange := by
  have hlt : ∀ t, t < b.graph.size + p.size + q.size → t < e.graph.size := by
    intro t ht
    rw [h.size_eq]
    exact ht
  rw [SymbolGraph.inRange_iff]
  intro n key t ht
  rcases block_cases b.graph.size p.size q.size n with
    hn | ⟨i, hi, rfl⟩ | ⟨j, hj, rfl⟩ | ⟨i, rfl⟩
  · -- The names lead to the first symbols of the blocks, and there are such symbols.
    rw [h.prop?_old n hn] at ht
    split at ht
    · exact Option.some.inj ht ▸ hlt _ (by omega)
    · split at ht
      · exact Option.some.inj ht ▸ hlt _ (by omega)
      · exact hlt t (Nat.lt_of_lt_of_le (hrange.lt_size ht) (by omega))
  · rw [h.prop?_first i hi, Option.map_eq_some_iff] at ht
    obtain ⟨m, hm, rfl⟩ := ht
    have hm' := p.link_lt i key m hm
    exact hlt _ (by omega)
  · rw [h.prop?_second j hj, Option.map_eq_some_iff] at ht
    obtain ⟨m, hm, rfl⟩ := ht
    have hm' := q.link_lt j key m hm
    exact hlt _ (by omega)
  · rw [SymbolGraph.prop?_of_size_le (by rw [h.size_eq]; omega)] at ht
    contradiction

section swapped

variable (h : AddedBoth p x q y b e) (h' : AddedBoth q y p x b e')
include h h'

theorem face_swapped (n : Nat) :
    (e'.graph.get (swapBlocks b.graph.size p.size q.size n)).face = (e.graph.get n).face := by
  rcases block_cases b.graph.size p.size q.size n with
    hn | ⟨i, hi, rfl⟩ | ⟨j, hj, rfl⟩ | ⟨i, rfl⟩
  · rw [swapBlocks_old hn, h'.face_old n hn, h.face_old n hn]
  · rw [swapBlocks_first hi, h'.face_second i hi, h.face_first i hi]
  · rw [swapBlocks_second hj, h'.face_first j hj, h.face_second j hj]
  · rw [swapBlocks_beyond, SymbolGraph.get_of_size_le (by rw [h'.size_eq]; omega),
      SymbolGraph.get_of_size_le (by rw [h.size_eq]; omega)]

theorem prop?_swapped (hrange : b.graph.InRange) (hp : 0 < p.size) (hq : 0 < q.size)
    (hxy : x ≠ y) (n : Nat) (key : String) :
    e'.graph.prop? (swapBlocks b.graph.size p.size q.size n) key =
      (e.graph.prop? n key).map (swapBlocks b.graph.size p.size q.size) := by
  rcases block_cases b.graph.size p.size q.size n with
    hn | ⟨i, hi, rfl⟩ | ⟨j, hj, rfl⟩ | ⟨i, rfl⟩
  · rw [swapBlocks_old hn, h'.prop?_old n hn, h.prop?_old n hn]
    by_cases hy : n = root ∧ key = y
    · -- The second name leads to the second block, which has become the first.
      have hx : ¬ (n = root ∧ key = x) := fun hx => hxy (hx.2.symm.trans hy.2)
      have hsecond : swapBlocks b.graph.size p.size q.size (b.graph.size + p.size) =
          b.graph.size := swapBlocks_second hq
      rw [if_neg hx, if_pos hy, if_pos hy, Option.map_some]
      exact congrArg some hsecond.symm
    · by_cases hx : n = root ∧ key = x
      · have hfirst : swapBlocks b.graph.size p.size q.size b.graph.size =
            b.graph.size + q.size := swapBlocks_first hp
        rw [if_pos hx, if_neg hy, if_pos hx, Option.map_some]
        exact congrArg some hfirst.symm
      · rw [if_neg hx, if_neg hy, if_neg hy, if_neg hx]
        cases hfound : b.graph.prop? n key with
        | none => rfl
        | some t => rw [Option.map_some, swapBlocks_old (hrange.lt_size hfound)]
  · rw [swapBlocks_first hi, h'.prop?_second i hi, h.prop?_first i hi]
    cases hlink : p.link i key with
    | none => rfl
    | some m =>
        rw [Option.map_some, Option.map_some, Option.map_some,
          swapBlocks_first (p.link_lt i key m hlink)]
  · rw [swapBlocks_second hj, h'.prop?_first j hj, h.prop?_second j hj]
    cases hlink : q.link j key with
    | none => rfl
    | some m =>
        rw [Option.map_some, Option.map_some, Option.map_some,
          swapBlocks_second (q.link_lt j key m hlink)]
  · rw [swapBlocks_beyond, SymbolGraph.prop?_of_size_le (by rw [h'.size_eq]; omega),
      SymbolGraph.prop?_of_size_le (by rw [h.size_eq]; omega)]
    rfl

/-- **Two named blocks can be added in either order.** -/
theorem mirrors (hroot : root < b.graph.size) (hrange : b.graph.InRange) (hp : 0 < p.size)
    (hq : 0 < q.size) (hxy : x ≠ y) :
    Mirrors (swapBlocks b.graph.size p.size q.size) [] e e' := by
  have hbijective : Function.Bijective (swapBlocks b.graph.size p.size q.size) :=
    ⟨Function.LeftInverse.injective swapBlocks_swapBlocks,
      Function.RightInverse.surjective swapBlocks_swapBlocks⟩
  refine .of_bijective hbijective (swapBlocks_old hroot) ?_ ?_ ?_ (h.face_swapped h')
    (h.prop?_swapped h' hrange hp hq hxy) (h'.diagnostics_eq.trans h.diagnostics_eq.symm)
    (h.inRange hrange hp hq)
  · rw [h.size_eq]
    exact Nat.lt_of_lt_of_le hroot (by omega)
  · intro i
    rw [h.size_eq, h'.size_eq]
    exact swapBlocks_beyond i
  · intro n hn
    rw [h.size_eq] at hn
    rw [h'.size_eq]
    exact swapBlocks_lt hn

end swapped

end Bindings.AddedBoth

/-! ### Declarations -/

/-- A function with a name, or a class with a name and a class body. -/
def Ast.DeclaresNamed (ast : Ast) (d : NodeId) (x : String) : Prop :=
  ∃ id, ast.node id = .identifier x ∧
    (ast.node d = .functionDeclaration (some id) ∨
      ∃ body methods, ast.node d = .classDeclaration (some id) body ∧
        ast.node body = .classBody methods)

namespace Resolver

variable {r : Resolver} {d d₁ d₂ : NodeId} {x y : String}

/-- Every method with a static name adds one symbol, and a link to it from the class. -/
theorem addMethods_appended (methods : List Entry) {p : SymbolBlock} (hp : 0 < p.size) :
    ∃ p' : SymbolBlock, 0 < p'.size ∧ ∀ b c, Bindings.Appended p b c →
      Bindings.Appended p' b (r.addMethods b.graph.size methods c) := by
  induction methods generalizing p with
  | nil => exact ⟨p, hp, fun _ _ h => h⟩
  | cons m rest ih =>
      cases hkey : r.ast.entryKey? m with
      | none =>
          obtain ⟨p', hp', hrest⟩ := ih hp
          refine ⟨p', hp', ?_⟩
          intro b c h
          rw [addMethods_cons_of_none hkey]
          exact hrest b c h
      | some key =>
          obtain ⟨p', hp', hrest⟩ := ih (p.size_addMember_pos key (.object (some m.value)))
          refine ⟨p', hp', ?_⟩
          intro b c h
          rw [addMethods_cons_of_some hkey]
          exact hrest b _ (h.addMember key rfl)

/-- **A named declaration adds a block** that does not depend on what was there before. -/
theorem exists_block (h : r.ast.DeclaresNamed d x) (fuel : Nat) :
    ∃ p : SymbolBlock, 0 < p.size ∧ ∀ b : Bindings, root < b.graph.size →
      Bindings.Added p x b (r.assignThrough (fuel + 1) d b) := by
  obtain ⟨id, hid, hfunction | ⟨body, methods, hclass, hbody⟩⟩ := h
  · -- A function and its prototype.
    refine ⟨(SymbolBlock.empty.push (.object (some d))).addMember "prototype" (.object none),
      SymbolBlock.size_addMember_pos .., ?_⟩
    intro b hroot
    have hvalue : r.resolve maxNesting d (some root) {} b =
        (some b.graph.size, (functionSymbol d b).2) := by
      rw [maxNesting, resolve, resolveNode, hfunction]
      rfl
    have hmade := ((Bindings.Appended.nothing b).alloc (s := .object (some d)) rfl).addMember
      "prototype" (s := .object none) rfl
    have hname : (r.ast.identifierName? id).isSome = true := by
      rw [Ast.identifierName?, hid]
      rfl
    rw [assignThrough, hfunction]
    dsimp only
    rw [if_pos hname, bind_identifier hid rfl hvalue]
    exact hmade.added hroot x
  · -- A class and its methods.
    obtain ⟨p, hp, hmethods⟩ :=
      addMethods_appended (r := r) methods
        (p := SymbolBlock.empty.push (.object (some body))) (Nat.succ_pos _)
    refine ⟨p, hp, ?_⟩
    intro b hroot
    have hmade := hmethods b _ ((Bindings.Appended.nothing b).alloc rfl)
    rw [assignThrough, hclass]
    dsimp only
    rw [bind_identifier hid rfl (resolve_classBody hbody b)]
    exact hmade.added hroot x

/-- The declaration pass has nothing to do at functions and classes. -/
theorem declareThrough_of_declaresNamed (h : r.ast.DeclaresNamed d x) (fuel : Nat)
    (b : Bindings) : r.declareThrough fuel d b = b := by
  cases fuel with
  | zero => rfl
  | succ fuel =>
      obtain ⟨id, -, hfunction | ⟨body, methods, hclass, -⟩⟩ := h
      · rw [declareThrough, hfunction]
      · rw [declareThrough, hclass]

section swap

variable (h₁ : r.ast.DeclaresNamed d₁ x) (h₂ : r.ast.DeclaresNamed d₂ y) (hxy : x ≠ y)
include h₁ h₂ hxy

/-- Two declarations of different names, in either order. -/
theorem exists_mirrors_swap (fuel : Nat) {b : Bindings} (hroot : root < b.graph.size)
    (hrange : b.graph.InRange) :
    ∃ ρ, Bindings.Mirrors ρ []
      (r.assignThrough (fuel + 1) d₂ (r.assignThrough (fuel + 1) d₁ b))
      (r.assignThrough (fuel + 1) d₁ (r.assignThrough (fuel + 1) d₂ b)) := by
  obtain ⟨p, hp, hfirst⟩ := exists_block h₁ fuel
  obtain ⟨q, hq, hsecond⟩ := exists_block h₂ fuel
  have hb₁ := hfirst b hroot
  have hb₂ := hsecond b hroot
  have hboth := hb₁.both hroot (hsecond _ (hb₁.root_lt hroot))
  have hboth' := hb₂.both hroot (hfirst _ (hb₂.root_lt hroot))
  exact ⟨_, hboth.mirrors hboth' hroot hrange hp hq hxy⟩

/-- **Both passes, with two neighbouring declarations exchanged.** -/
theorem bindStatements_swap (hkeys : r.keys = .direct) (before after : List NodeId) (fuel : Nat)
    {b : Bindings} (hroot : root < b.graph.size) (hrange : b.graph.InRange) :
    ∃ ρ, Bindings.Mirrors ρ [] (r.bindStatements (fuel + 1) (before ++ [d₁, d₂] ++ after) b)
      (r.bindStatements (fuel + 1) (before ++ [d₂, d₁] ++ after) b) := by
  -- One resolver and one tree, so that nothing has to be known about the nodes.
  have halike : Alike [] (fun _ => True) r r :=
    .of_no_hidden (fun _ _ _ _ => trivial) (fun _ _ => rfl) hkeys (by simp [hkeys])
  have hrec := resolve_mirrored halike hkeys maxNesting
  have hassign : ∀ (statements : List NodeId) {ρ : SymbolId → SymbolId} {e e' : Bindings},
      Bindings.Mirrors ρ [] e e' →
      Bindings.Stays ρ [] e (statements.foldl (fun b s => r.assignThrough (fuel + 1) s b) e)
        (statements.foldl (fun b s => r.assignThrough (fuel + 1) s b) e') := by
    intro statements ρ e e' he
    exact assignStatements_stays halike hrec (fun _ _ => rfl) (fun _ _ _ _ => trivial)
      (fun _ _ _ _ => trivial) (fuel + 1) he
  have hdeclare : ∀ (statements : List NodeId) {ρ : SymbolId → SymbolId} {e e' : Bindings},
      Bindings.Mirrors ρ [] e e' →
      Bindings.Stays ρ [] e (statements.foldl (fun b s => r.declareThrough (fuel + 1) s b) e)
        (statements.foldl (fun b s => r.declareThrough (fuel + 1) s b) e') := by
    intro statements ρ e e' he
    exact declareStatements_stays halike hrec (fun _ _ => rfl) (fun _ _ _ _ => trivial)
      (fuel + 1) he
  simp only [bindStatements, List.foldl_append, List.foldl_cons, List.foldl_nil,
    declareThrough_of_declaresNamed h₁, declareThrough_of_declaresNamed h₂]
  -- Up to the declarations the two runs are the same.
  obtain ⟨ρ₁, -, hdeclared⟩ := (hdeclare before (.refl hroot hrange)).trans fun _ he =>
    hdeclare after he
  obtain ⟨ρ₂, -, hassigned⟩ := hassign before hdeclared
  obtain ⟨ρ₃, hswapped⟩ :=
    exists_mirrors_swap h₁ h₂ hxy fuel hassigned.root_lt hassigned.inRange
  obtain ⟨ρ, -, hend⟩ := hassign after hswapped
  exact ⟨ρ, hend⟩

end swap

end Resolver

/-! ### Other top-level statements -/

/-- The tree with other top-level statements. -/
def Ast.withBody (ast : Ast) (body : List NodeId) : Ast :=
  { ast with nodes := ast.nodes.modify ast.program fun n => { n with node := .program body } }

namespace Ast

variable {ast : Ast} {id : NodeId}

theorem node_withBody_program (hprogram : ast.program < ast.size) (body : List NodeId) :
    (ast.withBody body).node ast.program = .program body := by
  have hlt : ast.program < ast.nodes.size := hprogram
  rw [node, withBody]
  dsimp only
  rw [Array.getElem?_modify, if_pos rfl, Array.getElem?_eq_getElem hlt]
  rfl

theorem node_withBody_of_ne (hid : id ≠ ast.program) (body : List NodeId) :
    (ast.withBody body).node id = ast.node id := by
  rw [node, node, withBody]
  simp [Array.getElem?_modify, hid.symm]

/-- The parts of a node that comes before the program come before the program. -/
theorem ChildrenFirst.lt_program (h : ast.ChildrenFirst) (hprogram : ast.program < ast.size)
    (hid : id ≤ ast.program) : ∀ p ∈ (ast.node id).references, p < ast.program := by
  intro p hp
  exact Nat.lt_of_lt_of_le (h id (Nat.lt_of_le_of_lt hid hprogram) p hp) hid

end Ast

namespace Resolver

/-- Changing the top-level statements does not change how other nodes are read. -/
theorem alike_withBody {ast : Ast} (hfirst : ast.ChildrenFirst)
    (hprogram : ast.program < ast.size) (body : List NodeId) :
    Alike [] (· < ast.program) { ast } { ast := ast.withBody body } :=
  .of_no_hidden (fun _ hid => hfirst.lt_program hprogram (Nat.le_of_lt hid))
    (fun _ hid => Ast.node_withBody_of_ne (Nat.ne_of_lt hid) body) rfl (by simp)

/-- Binding the changed tree is binding the other statements in the tree. -/
theorem bindModule_withBody_stays {ast : Ast} (hfirst : ast.ChildrenFirst)
    (hprogram : ast.program < ast.size) {body : List NodeId} (hbody : ∀ s ∈ body, s < ast.program)
    {b : Bindings} (hroot : root < b.graph.size) (hrange : b.graph.InRange) :
    Bindings.Stays id [] b (bindStatements { ast } ast.program body b)
      (bindModule { ast := ast.withBody body } b) := by
  have halike := alike_withBody hfirst hprogram body
  rw [bindModule_eq_bindStatements (r := { ast := ast.withBody body })
    (Ast.node_withBody_program hprogram body)]
  exact bindStatements_stays halike (resolve_mirrored halike rfl maxNesting)
    (fun s hs => halike.node_eq s (hbody s hs)) (fun s hs => halike.closed s (hbody s hs))
    (fun s hs _ _ => hbody s hs) ast.program (.refl hroot hrange)

end Resolver

namespace Analysis

/-- **Neighbouring declarations can change places.**  If two functions or classes with different
names follow each other at the top level, then the module with the two exchanged gives the same
diagnostics in the same order and the same answer to every query, whatever stands before and after
them. -/
theorem swap_declarations_sameSurface (ast : Ast) (hfirst : ast.ChildrenFirst)
    (before after : List NodeId) (d₁ d₂ : NodeId) (x y : String)
    (hbody : ast.node ast.program = .program (before ++ [d₁, d₂] ++ after))
    (h₁ : ast.DeclaresNamed d₁ x) (h₂ : ast.DeclaresNamed d₂ y) (hxy : x ≠ y)
    (options : AnalysisOptions) :
    (ofAst ast options).SameSurface
      (ofAst (ast.withBody (before ++ [d₂, d₁] ++ after)) options) := by
  have hprogram : ast.program < ast.size := Ast.lt_size_of_node_ne (by simp [hbody])
  have hlt : ∀ s ∈ before ++ [d₁, d₂] ++ after, s < ast.program := by
    intro s hs
    refine hfirst.lt_program hprogram (Nat.le_refl _) s ?_
    rw [hbody]
    exact hs
  have hlt' : ∀ s ∈ before ++ [d₂, d₁] ++ after, s < ast.program := by
    intro s hs
    refine hlt s ?_
    simp only [List.mem_append, List.mem_cons] at hs ⊢
    tauto
  have hstart := (hoisting_start ast options).inBounds
  obtain ⟨fuel, hfuel⟩ : ∃ fuel, ast.program = fuel + 1 :=
    Nat.exists_eq_add_one.2 (Nat.lt_of_le_of_lt (Nat.zero_le d₁) (hlt d₁ (by simp)))
  -- First the statements are exchanged in the same tree, then the tree is.
  obtain ⟨ρ, hswap⟩ := Resolver.bindStatements_swap (r := { ast }) h₁ h₂ hxy rfl before after fuel
    hstart.root_lt hstart.inRange
  obtain ⟨ρ', -, htree⟩ :=
    Resolver.bindModule_withBody_stays hfirst hprogram hlt' hstart.root_lt hstart.inRange
  rw [hfuel] at htree
  rw [ofAst, ofAst, Resolver.bindModule_eq_bindStatements (r := { ast }) hbody]
  dsimp only
  rw [hfuel]
  exact hswap.sameSurface.trans htree.sameSurface

/-- The tree of `function f() {} class C { m() {} } export { f, g };`. -/
def functionThenClass : Ast where
  nodes := ([.identifier "f", .functionDeclaration (some 0), .identifier "C", .identifier "m",
    .functionExpression none, .classBody [⟨3, 4, false⟩], .classDeclaration (some 2) 5,
    .identifier "f", .exportSpecifier 7, .identifier "g", .exportSpecifier 9,
    .exportNamed none [8, 10], .program [1, 6, 11]].map fun n => ⟨n, ⟨0, 0⟩⟩).toArray
  program := 12

/-- The function gets another position.  All answers stay the same, and so does the complaint that
`g` is not declared. -/
theorem functionThenClass_sameSurface :
    functionThenClass.ChildrenFirst ∧ functionThenClass.DeclaresNamed 1 "f" ∧
      functionThenClass.DeclaresNamed 6 "C" ∧
      (ofAst functionThenClass {}).graph.prop? root "f" = some 3 ∧
      (ofAst (functionThenClass.withBody [6, 1, 11]) {}).graph.prop? root "f" = some 5 ∧
      (ofAst functionThenClass {}).diagnostics = #[.unresolvedValue 9 "g"] ∧
      (ofAst functionThenClass {}).SameSurface
        (ofAst (functionThenClass.withBody [6, 1, 11]) {}) := by
  have hfirst : functionThenClass.ChildrenFirst := by
    unfold Ast.ChildrenFirst
    decide
  have hf : functionThenClass.DeclaresNamed 1 "f" := ⟨0, rfl, .inl rfl⟩
  have hC : functionThenClass.DeclaresNamed 6 "C" := ⟨2, rfl, .inr ⟨5, _, rfl, rfl⟩⟩
  exact ⟨hfirst, hf, hC, by decide +kernel, by decide +kernel, by decide +kernel,
    swap_declarations_sameSurface functionThenClass hfirst [] [11] 1 6 "f" "C" rfl hf hC
      (by decide) {}⟩

end Analysis

end ExportSurface

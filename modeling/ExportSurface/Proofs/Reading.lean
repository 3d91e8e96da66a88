/-
Reading an expression.

An expression without assignments is only read.  Reading adds symbols and fills those it added; if
missing members are to be made, it also gives old symbols members that they lack, and these lead to
new empty objects.

Main definitions:

* `Ast.AssignmentFree` — no assignment occurs in a node;
* `Bindings.ReadStep` — one change while an expression is read;
* `SymbolGraph.Extends` — a graph with the symbols of another one, unchanged, and perhaps more;
* `SymbolGraph.Completes` — old symbols got members that they lacked, and nothing else.

Main results:

* `Bindings.ReadSteps.extends_graph`, `Bindings.ReadSteps.completes` — **what reading leaves
  alone**;
* `Resolver.resolve_reads` — **resolving an expression without assignments only reads**.
-/

import ExportSurface.Proofs.SafeTasks

set_option autoImplicit false

namespace ExportSurface

/-! ### Expressions without assignments -/

/-- No assignment occurs in a node. -/
def Ast.AssignmentFree (ast : Ast) (whole : NodeId) : Prop :=
  ∀ n, ast.Occurs whole n → ∀ t v, ast.node n ≠ .assignment t v

namespace Ast.AssignmentFree

variable {ast : Ast} {whole : NodeId}

theorem part (h : ast.AssignmentFree whole) {p : NodeId}
    (hp : p ∈ (ast.node whole).references) : ast.AssignmentFree p :=
  fun n hn => h n ((Ast.Occurs.of_part hp).trans hn)

theorem not_assignment (h : ast.AssignmentFree whole) {t v : NodeId} :
    ast.node whole ≠ .assignment t v :=
  h whole .here t v

end Ast.AssignmentFree

/-! ### Reading -/

/-- The second graph has the symbols of the first, unchanged, and perhaps more. -/
structure SymbolGraph.Extends (g g' : SymbolGraph) : Prop where
  size_le : g.size ≤ g'.size
  get_eq : ∀ id < g.size, g'.get id = g.get id

/-- In the second graph, the first `base` symbols of the first one may have got properties that they
lacked, if they are no literals; these lead to objects made for no node, from `base` on. -/
structure SymbolGraph.Completes (base : SymbolId) (g g' : SymbolGraph) : Prop where
  size_le : g.size ≤ g'.size
  face_eq : ∀ id < g.size, (g'.get id).face = (g.get id).face
  kept : ∀ id < base, ∀ key t, g.prop? id key = some t → g'.prop? id key = some t
  added : ∀ id < base, ∀ key t, g.prop? id key = none → g'.prop? id key = some t →
    (g.get id).kind ≠ .literal ∧ base ≤ t ∧ t < g'.size ∧ (g'.get t).face = .object none

namespace Bindings

/-- One change while an expression is read.  Symbols from `base` on are new; only if missing members
are to be made are others touched. -/
inductive ReadStep (create : Bool) (base : SymbolId) (b : Bindings) : Bindings → Prop where
  | report (d : Diagnostic) : ReadStep create base b (b.report d)
  | alloc {s : Symbol} : s.props = .empty → ReadStep create base b (b.alloc s).2
  | fill {id t : SymbolId} {key : String} : base ≤ id →
      ReadStep create base b (b.setProp id key t)
  | create {id t : SymbolId} {key : String} : create = true → id < base →
      (b.graph.get id).hasMembers = true → b.graph.prop? id key = none → base ≤ t →
      t < b.graph.size → (b.graph.get t).face = .object none →
      ReadStep create base b (b.setProp id key t)

/-- Any number of them. -/
abbrev ReadSteps (create : Bool) (base : SymbolId) : Bindings → Bindings → Prop :=
  Relation.ReflTransGen (ReadStep create base)

variable {create : Bool} {base : SymbolId} {b c : Bindings}

namespace ReadStep

theorem grows (h : ReadStep create base b c) : b.Grows c := by
  cases h with
  | report _ => exact .report b _
  | alloc _ => exact .alloc b _
  | fill _ => exact .setProp b _ _ _
  | create => exact .setProp b _ _ _

theorem face_eq (h : ReadStep create base b c) {id : SymbolId} (hid : id < b.graph.size) :
    (c.graph.get id).face = (b.graph.get id).face := by
  cases h with
  | report _ => rfl
  | alloc _ => rw [alloc_graph, SymbolGraph.get_alloc, if_neg (Nat.ne_of_lt hid)]
  | fill _ => exact SymbolGraph.face_setProp ..
  | create => exact SymbolGraph.face_setProp ..

/-- A change that makes no members leaves the old symbols as they are. -/
theorem get_eq (h : ReadStep false base b c) (hb : base ≤ b.graph.size) {id : SymbolId}
    (hid : id < base) : c.graph.get id = b.graph.get id := by
  cases h with
  | report _ => rfl
  | alloc _ =>
      rw [alloc_graph, SymbolGraph.get_alloc, if_neg (Nat.ne_of_lt (Nat.lt_of_lt_of_le hid hb))]
  | fill hle =>
      rw [setProp_graph, SymbolGraph.get_setProp, if_neg]
      rintro ⟨rfl, -⟩
      exact absurd hid (Nat.not_lt.2 hle)
  | create hcreate => exact absurd hcreate Bool.false_ne_true

/-- A property of an old symbol stays, or is new and leads to a new empty object. -/
theorem prop?_cases (h : ReadStep create base b c) {id : SymbolId} (hid : id < base)
    (key : String) :
    c.graph.prop? id key = b.graph.prop? id key ∨
      b.graph.prop? id key = none ∧ (b.graph.get id).kind ≠ .literal ∧
      ∃ t, c.graph.prop? id key = some t ∧ base ≤ t ∧ t < c.graph.size ∧
        (c.graph.get t).face = .object none := by
  cases h with
  | report _ => exact .inl rfl
  | alloc hs => exact .inl (SymbolGraph.prop?_alloc _ hs ..)
  | fill hle =>
      refine .inl ?_
      rw [setProp_graph, SymbolGraph.prop?_setProp, if_neg]
      rintro ⟨⟨rfl, -⟩, -⟩
      exact absurd hid (Nat.not_lt.2 hle)
  | @create owner t name _ howner hmembers hnone hle hlt hface =>
      rw [setProp_graph, SymbolGraph.prop?_setProp]
      split
      case isTrue heq =>
          obtain ⟨⟨rfl, -⟩, rfl⟩ := heq
          refine .inr ⟨hnone, by simpa [Symbol.hasMembers] using hmembers, t, rfl, hle, ?_, ?_⟩
          · rw [SymbolGraph.size_setProp]
            exact hlt
          · rw [SymbolGraph.face_setProp, hface]
      case isFalse => exact .inl rfl

end ReadStep

namespace ReadSteps

theorem size_le (h : ReadSteps create base b c) : b.graph.size ≤ c.graph.size :=
  (grows_of_steps ReadStep.grows h).size_le

theorem face_eq (h : ReadSteps create base b c) {id : SymbolId} (hid : id < b.graph.size) :
    (c.graph.get id).face = (b.graph.get id).face := by
  induction h with
  | refl => rfl
  | tail hrest hs ih => exact (hs.face_eq (Nat.lt_of_lt_of_le hid (size_le hrest))).trans ih

/-- **Reading that makes no members leaves the old symbols as they are.** -/
theorem get_eq (h : ReadSteps false base b c) (hb : base ≤ b.graph.size) {id : SymbolId}
    (hid : id < base) : c.graph.get id = b.graph.get id := by
  induction h with
  | refl => rfl
  | tail hrest hs ih => exact (hs.get_eq (Nat.le_trans hb (size_le hrest)) hid).trans ih

theorem extends_graph (h : ReadSteps false b.graph.size b c) : b.graph.Extends c.graph where
  size_le := h.size_le
  get_eq := fun _ hid => h.get_eq (Nat.le_refl _) hid

/-- **Reading only adds members that were missing.** -/
theorem completes (h : ReadSteps create base b c) (hb : base ≤ b.graph.size) :
    b.graph.Completes base c.graph := by
  induction h with
  | refl =>
      refine ⟨Nat.le_refl _, fun _ _ => rfl, fun _ _ _ _ ht => ht, fun _ _ _ _ hnone ht => ?_⟩
      rw [hnone] at ht
      cases ht
  | @tail c d hrest hs ih =>
      refine ⟨size_le (hrest.tail hs), fun _ hid => face_eq (hrest.tail hs) hid, ?_, ?_⟩
      · intro id hid key t ht
        have hkept := ih.kept id hid key t ht
        rcases hs.prop?_cases hid key with hsame | ⟨hnone, -⟩
        · rw [hsame, hkept]
        · rw [hkept] at hnone
          cases hnone
      · intro id hid key t hnone ht
        rcases hs.prop?_cases hid key with hsame | ⟨-, hkind, u, hu, hle, hlt, hempty⟩
        · rw [hsame] at ht
          obtain ⟨hkind, hle, hlt, hempty⟩ := ih.added id hid key t hnone ht
          exact ⟨hkind, hle, Nat.lt_of_lt_of_le hlt hs.grows.size_le, (hs.face_eq hlt).trans hempty⟩
        · rw [ht] at hu
          cases hu
          have hsame := congrArg Symbol.kind (ih.face_eq id (Nat.lt_of_lt_of_le hid hb))
          exact ⟨fun h => hkind (hsame.trans h), hle, hlt, hempty⟩

end ReadSteps

end Bindings

namespace Resolver

open Bindings (ReadStep ReadSteps)

/-! ### Resolving -/

section resolve

variable {r : Resolver} {base : SymbolId} {b : Bindings} {create : Bool}

/-- Nodes without assignments are to be resolved, and members made only if that is expected. -/
def AsksToRead (r : Resolver) (create : Bool) : Task → Bindings → Prop
  | .resolve _ id _ options, _ =>
      r.ast.AssignmentFree id ∧ (options.createMissing = true → create = true)
  | _, _ => False

theorem asksToRead_of_asks {t t' : Task} {b₀ : Bindings} (h : Asks r b₀ t t' b)
    (ht : r.AsksToRead create t b₀) : r.AsksToRead create t' b := by
  cases h with
  | base hnode => exact ⟨ht.1.part (by simp [hnode, Node.references]), ht.2⟩
  | key hnode hkey =>
      refine ⟨ht.1.part (by simp [hnode, Node.references]), ?_⟩
      simp [createMissing_keyOptions? hkey]
  | assignment hnode => exact absurd hnode ht.1.not_assignment
  | entry hnode _ => exact ⟨ht.1.part (by simp [hnode, Node.references]), ht.2⟩
  | _ => exact ht.elim

/-- Resolving such a node changes the state by reading steps. -/
theorem readStep_of_change {t : Task} {b₀ b' : Bindings}
    (h : Change r (fun _ _ => True) b₀ b t b') (ht : r.AsksToRead create t b₀)
    (hbase : base ≤ b₀.graph.size) : ReadStep create base b b' := by
  cases h with
  | limit => exact .report _
  | report _ _ => exact .report _
  | alloc hmakes => exact .alloc hmakes.props
  | fill _ _ _ => exact .fill hbase
  | @create _ _ _ _ owner _ c hcreate hgrows _ hmembers hnone hb _ =>
      have hc : base ≤ c.graph.size := Nat.le_trans hbase hgrows.size_le
      subst hb
      rcases Nat.lt_or_ge owner base with hlt | hge
      · have hold : owner ≠ c.graph.size := Nat.ne_of_lt (Nat.lt_of_lt_of_le hlt hc)
        refine .create (ht.2 hcreate) hlt ?_ ?_ hc (Bindings.lt_of_alloc rfl) ?_
        · rw [Bindings.alloc_graph, SymbolGraph.get_alloc, if_neg hold, hmembers]
        · rw [Bindings.alloc_graph, SymbolGraph.prop?_alloc _ rfl, hnone]
        · rw [Bindings.alloc_graph, SymbolGraph.get_alloc, if_pos rfl]
          rfl
      · exact .fill hge
  | _ => exact ht.elim

/-- **Resolving an expression without assignments only reads.** -/
theorem resolve_reads (r : Resolver) (levels : Nat) {n : NodeId} (hn : r.ast.AssignmentFree n)
    (scope : Option SymbolId) (options : ResolveOptions) (hb : base ≤ b.graph.size) :
    ReadSteps options.createMissing base b (r.resolve levels n scope options b).2 :=
  Task.steps (t := .resolve levels n scope options) (r.AsksToRead options.createMissing)
    (fun c => base ≤ c.graph.size) (fun hway hask => asksToRead_of_asks hask hway.allowed)
    (fun hway hchange => readStep_of_change hchange hway.allowed hway.started)
    (fun hs hc => Nat.le_trans hc hs.grows.size_le) ⟨hn, id⟩ hb

theorem memberKey?_reads (r : Resolver) (levels : Nat) {property : NodeId}
    (hprop : r.ast.AssignmentFree property) (computed : Bool) (scope : Option SymbolId)
    (hb : base ≤ b.graph.size) :
    ReadSteps false base b (r.memberKey? (r.resolve levels) property computed scope b).2 := by
  rw [memberKey?_eq_match]
  cases hkey : r.keyOptions? property computed with
  | none => exact .refl
  | some options =>
      have hreads := resolve_reads r levels hprop scope options hb
      rw [createMissing_keyOptions? hkey] at hreads
      rwa [snd_resolvedKey?]

end resolve

end Resolver

end ExportSurface

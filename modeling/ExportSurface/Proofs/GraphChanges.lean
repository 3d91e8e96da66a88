/-
What each change of a symbol graph does to its symbols.

A graph changes in three ways only: a symbol is added, a property is pointed at a symbol, a symbol
is flagged as exported.  This module says what a look-up finds after each of them, field by field,
so that no later proof opens the arena.

Main results:

* `SymbolGraph.get_alloc`, `SymbolGraph.get_setProp`, `SymbolGraph.get_markExported` — the symbol
  at a position after a change;
* `SymbolGraph.prop?_alloc`, `SymbolGraph.prop?_setProp` — **a change touches one property at
  most**;
* `SymbolGraph.inRange_iff`, `SymbolGraph.InRange.alloc`, `SymbolGraph.InRange.setProp` — when
  properties stay in the graph.
-/

import ExportSurface.Binding.Resolver

set_option autoImplicit false

namespace ExportSurface

/-- A symbol apart from its properties. -/
def Symbol.face (s : Symbol) : Symbol := { s with props := .empty }

namespace SymbolGraph

variable {g : SymbolGraph}

/-! ### The size -/

@[simp] theorem alloc_fst (g : SymbolGraph) (s : Symbol) : (g.alloc s).1 = g.size := rfl

@[simp] theorem size_alloc (g : SymbolGraph) (s : Symbol) : (g.alloc s).2.size = g.size + 1 :=
  Array.size_push ..

@[simp] theorem size_modify (g : SymbolGraph) (id : SymbolId) (f : Symbol → Symbol) :
    (g.modify id f).size = g.size :=
  Array.size_modify ..

@[simp] theorem size_setProp (g : SymbolGraph) (id : SymbolId) (key : String) (t : SymbolId) :
    (g.setProp id key t).size = g.size :=
  size_modify ..

@[simp] theorem size_markExported (g : SymbolGraph) (id : SymbolId) :
    (g.markExported id).size = g.size :=
  size_modify ..

/-! ### The symbol at a position -/

theorem get_of_size_le {id : SymbolId} (h : g.size ≤ id) : g.get id = .placeholder := by
  have hnone : g.symbols[id]? = none := Array.getElem?_eq_none h
  rw [get, hnone]
  rfl

theorem get_empty (id : SymbolId) : empty.get id = .placeholder := by
  cases id with
  | zero => rfl
  | succ n => exact get_of_size_le (Nat.le_add_left 1 n)

theorem get_alloc (g : SymbolGraph) (s : Symbol) (j : SymbolId) :
    (g.alloc s).2.get j = if j = g.size then s else g.get j := by
  have hpush : (g.symbols.push s)[j]? = if j = g.size then some s else g.symbols[j]? :=
    Array.getElem?_push ..
  rw [get, alloc, hpush]
  split <;> rfl

theorem get_modify (g : SymbolGraph) (id : SymbolId) (f : Symbol → Symbol) (j : SymbolId) :
    (g.modify id f).get j = if j = id ∧ id < g.size then f (g.get j) else g.get j := by
  simp only [get, modify, Array.getElem?_modify]
  by_cases hj : id = j
  · subst hj
    rcases Nat.lt_or_ge id g.size with hlt | hle
    · have hsome : g.symbols[id]? = some g.symbols[id] := Array.getElem?_eq_getElem hlt
      simp [hlt, hsome]
    · have hnone : g.symbols[id]? = none := Array.getElem?_eq_none hle
      simp [Nat.not_lt.2 hle, hnone]
  · simp [hj, Ne.symm hj]

theorem get_setProp (g : SymbolGraph) (id : SymbolId) (key : String) (t j : SymbolId) :
    (g.setProp id key t).get j =
      if j = id ∧ id < g.size then { g.get j with props := (g.get j).props.insert key t }
      else g.get j :=
  get_modify ..

theorem get_markExported (g : SymbolGraph) (id j : SymbolId) :
    (g.markExported id).get j =
      if j = id ∧ id < g.size then { g.get j with exported := true } else g.get j :=
  get_modify ..

/-! ### The fields of a symbol -/

section setProp

variable (g : SymbolGraph) (id : SymbolId) (key : String) (t j : SymbolId)

@[simp] theorem kind_setProp : ((g.setProp id key t).get j).kind = (g.get j).kind := by
  rw [get_setProp]
  split <;> rfl

@[simp] theorem value_setProp : ((g.setProp id key t).get j).value = (g.get j).value := by
  rw [get_setProp]
  split <;> rfl

@[simp] theorem scalar_setProp : ((g.setProp id key t).get j).scalar = (g.get j).scalar := by
  rw [get_setProp]
  split <;> rfl

@[simp] theorem exported_setProp : ((g.setProp id key t).get j).exported = (g.get j).exported := by
  rw [get_setProp]
  split <;> rfl

@[simp] theorem hasMembers_setProp :
    ((g.setProp id key t).get j).hasMembers = (g.get j).hasMembers := by
  rw [Symbol.hasMembers, Symbol.hasMembers, kind_setProp]

@[simp] theorem wraps_setProp (n : NodeId) :
    ((g.setProp id key t).get j).wraps n = (g.get j).wraps n := by
  rw [Symbol.wraps, Symbol.wraps, kind_setProp, value_setProp]

end setProp

section markExported

variable (g : SymbolGraph) (id j : SymbolId)

@[simp] theorem kind_markExported : ((g.markExported id).get j).kind = (g.get j).kind := by
  rw [get_markExported]
  split <;> rfl

@[simp] theorem value_markExported : ((g.markExported id).get j).value = (g.get j).value := by
  rw [get_markExported]
  split <;> rfl

@[simp] theorem scalar_markExported : ((g.markExported id).get j).scalar = (g.get j).scalar := by
  rw [get_markExported]
  split <;> rfl

@[simp] theorem wraps_markExported (n : NodeId) :
    ((g.markExported id).get j).wraps n = (g.get j).wraps n := by
  rw [Symbol.wraps, Symbol.wraps, kind_markExported, value_markExported]

@[simp] theorem props_markExported : ((g.markExported id).get j).props = (g.get j).props := by
  rw [get_markExported]
  split <;> rfl

theorem exported_markExported :
    ((g.markExported id).get j).exported = true ↔
      (g.get j).exported = true ∨ (j = id ∧ id < g.size) := by
  rw [get_markExported]
  split
  case isTrue h => exact iff_of_true rfl (.inr h)
  case isFalse h => exact (or_iff_left h).symm

end markExported

theorem face_setProp (g : SymbolGraph) (id : SymbolId) (key : String) (t j : SymbolId) :
    ((g.setProp id key t).get j).face = (g.get j).face := by
  rw [get_setProp]
  split <;> rfl

theorem face_markExported (g : SymbolGraph) (id j : SymbolId) :
    ((g.markExported id).get j).face =
      if j = id ∧ id < g.size then { (g.get j).face with exported := true }
      else (g.get j).face := by
  rw [get_markExported]
  split <;> rfl

/-! ### Properties -/

theorem prop?_alloc (g : SymbolGraph) {s : Symbol} (hs : s.props = .empty) (j : SymbolId)
    (k : String) : (g.alloc s).2.prop? j k = g.prop? j k := by
  rw [prop?, prop?, get_alloc]
  split
  case isTrue h => rw [h, hs, get_of_size_le (Nat.le_refl _)]; rfl
  case isFalse h => rfl

/-- Setting a property changes that property only. -/
theorem prop?_setProp (g : SymbolGraph) (id : SymbolId) (key : String) (t j : SymbolId)
    (k : String) :
    (g.setProp id key t).prop? j k =
      if (j = id ∧ id < g.size) ∧ k = key then some t else g.prop? j k := by
  rw [prop?, prop?, get_setProp]
  by_cases h : j = id ∧ id < g.size
  · simp only [h, and_self, if_true, true_and, Props.get?_insert]
  · simp only [h, if_false, false_and]

@[simp] theorem prop?_markExported (g : SymbolGraph) (id j : SymbolId) (k : String) :
    (g.markExported id).prop? j k = g.prop? j k := by
  rw [prop?, prop?, props_markExported]

theorem prop?_of_size_le {id : SymbolId} (h : g.size ≤ id) (key : String) :
    g.prop? id key = none := by
  rw [prop?, get_of_size_le h]
  rfl

theorem lt_size_of_prop? {id t : SymbolId} {key : String} (h : g.prop? id key = some t) :
    id < g.size := by
  rcases Nat.lt_or_ge id g.size with hlt | hle
  · exact hlt
  · rw [prop?_of_size_le hle] at h
    cases h

/-! ### Properties that stay in the graph -/

theorem inRange_iff : g.InRange ↔ ∀ id key t, g.prop? id key = some t → t < g.size := by
  constructor
  · intro h id key t ht
    exact h id (lt_size_of_prop? ht) t (Props.mem_targets_iff.2 ⟨key, ht⟩)
  · intro h id _ t ht
    obtain ⟨key, hkey⟩ := Props.mem_targets_iff.1 ht
    exact h id key t hkey

theorem InRange.lt_size (h : g.InRange) {id t : SymbolId} {key : String}
    (ht : g.prop? id key = some t) : t < g.size :=
  inRange_iff.1 h id key t ht

theorem InRange.alloc (h : g.InRange) {s : Symbol} (hs : s.props = .empty) :
    (g.alloc s).2.InRange := by
  rw [inRange_iff]
  intro id key t ht
  rw [prop?_alloc g hs] at ht
  rw [size_alloc]
  exact Nat.lt_succ_of_lt (h.lt_size ht)

theorem InRange.setProp (h : g.InRange) {id t : SymbolId} {key : String} (ht : t < g.size) :
    (g.setProp id key t).InRange := by
  rw [inRange_iff]
  intro j k u hu
  rw [prop?_setProp] at hu
  rw [size_setProp]
  split at hu
  case isTrue _ => exact Option.some.inj hu ▸ ht
  case isFalse _ => exact h.lt_size hu

theorem InRange.markExported (h : g.InRange) (id : SymbolId) : (g.markExported id).InRange := by
  rw [inRange_iff]
  intro j k u hu
  rw [prop?_markExported] at hu
  rw [size_markExported]
  exact h.lt_size hu

end SymbolGraph

/-! ### Symbols and graphs that evolve -/

/-- The second symbol is the first one at a later time. -/
structure Symbol.Evolves (s s' : Symbol) : Prop where
  kind_eq : s'.kind = s.kind
  value_eq : s'.value = s.value
  scalar_eq : s'.scalar = s.scalar
  /-- A property may lead elsewhere, but it is still there. -/
  keeps_key : ∀ key, (s.props.get? key).isSome → (s'.props.get? key).isSome
  keeps_flag : s.exported = true → s'.exported = true

namespace Symbol.Evolves

theorem refl (s : Symbol) : s.Evolves s := ⟨rfl, rfl, rfl, fun _ h => h, fun h => h⟩

theorem trans {s s' s'' : Symbol} (h : s.Evolves s') (h' : s'.Evolves s'') : s.Evolves s'' where
  kind_eq := h'.kind_eq.trans h.kind_eq
  value_eq := h'.value_eq.trans h.value_eq
  scalar_eq := h'.scalar_eq.trans h.scalar_eq
  keeps_key := fun key hkey => h'.keeps_key key (h.keeps_key key hkey)
  keeps_flag := fun hflag => h'.keeps_flag (h.keeps_flag hflag)

theorem insert (s : Symbol) (key : String) (t : SymbolId) :
    s.Evolves { s with props := s.props.insert key t } where
  kind_eq := rfl
  value_eq := rfl
  scalar_eq := rfl
  keeps_key := by
    intro k hk
    dsimp only
    rw [Props.get?_insert]
    split
    · rfl
    · exact hk
  keeps_flag := fun h => h

theorem flag (s : Symbol) : s.Evolves { s with exported := true } :=
  ⟨rfl, rfl, rfl, fun _ h => h, fun _ => rfl⟩

end Symbol.Evolves

/-- The second graph is the first one at a later time: its symbols are still there, in their places,
and new ones come after them. -/
structure SymbolGraph.Evolves (g g' : SymbolGraph) : Prop where
  size_le : g.size ≤ g'.size
  symbol : ∀ id < g.size, (g.get id).Evolves (g'.get id)

namespace SymbolGraph.Evolves

variable {g g' g'' : SymbolGraph}

theorem refl (g : SymbolGraph) : g.Evolves g := ⟨Nat.le_refl _, fun _ _ => .refl _⟩

theorem trans (h : g.Evolves g') (h' : g'.Evolves g'') : g.Evolves g'' where
  size_le := Nat.le_trans h.size_le h'.size_le
  symbol := fun id hid =>
    (h.symbol id hid).trans (h'.symbol id (Nat.lt_of_lt_of_le hid h.size_le))

theorem isSome_prop? (h : g.Evolves g') {id : SymbolId} {key : String}
    (hkey : (g.prop? id key).isSome) : (g'.prop? id key).isSome := by
  obtain ⟨t, ht⟩ := Option.isSome_iff_exists.1 hkey
  exact (h.symbol id (lt_size_of_prop? ht)).keeps_key key hkey

theorem alloc (g : SymbolGraph) (s : Symbol) : g.Evolves (g.alloc s).2 where
  size_le := by simp
  symbol := by
    intro id hid
    rw [get_alloc, if_neg (Nat.ne_of_lt hid)]
    exact .refl _

theorem modify (g : SymbolGraph) (id : SymbolId) {f : Symbol → Symbol}
    (hf : ∀ s : Symbol, s.Evolves (f s)) : g.Evolves (g.modify id f) where
  size_le := by simp
  symbol := by
    intro j _
    rw [get_modify]
    split
    · exact hf _
    · exact .refl _

theorem setProp (g : SymbolGraph) (id : SymbolId) (key : String) (t : SymbolId) :
    g.Evolves (g.setProp id key t) :=
  modify g id fun s => .insert s key t

theorem markExported (g : SymbolGraph) (id : SymbolId) : g.Evolves (g.markExported id) :=
  modify g id .flag

end SymbolGraph.Evolves

/-! ### Changes of bindings -/

namespace Bindings

variable (b : Bindings)

@[simp] theorem report_diagnostics (d : Diagnostic) :
    (b.report d).diagnostics = b.diagnostics.push d := rfl

@[simp] theorem alloc_graph (s : Symbol) : (b.alloc s).2.graph = (b.graph.alloc s).2 := rfl

/-- A symbol that was added is in the graph. -/
theorem lt_of_alloc {s : Symbol} {id : SymbolId} {b b' : Bindings} (h : b.alloc s = (id, b')) :
    id < b'.graph.size := by
  have hid : b.graph.size = id := congrArg Prod.fst h
  have hb : (b.alloc s).2 = b' := congrArg Prod.snd h
  rw [← hid, ← hb, alloc_graph, SymbolGraph.size_alloc]
  exact Nat.lt_succ_self _

theorem get_of_alloc {s : Symbol} {id : SymbolId} {b b' : Bindings} (h : b.alloc s = (id, b')) :
    b'.graph.get id = s := by
  have hid : b.graph.size = id := congrArg Prod.fst h
  have hb : (b.alloc s).2 = b' := congrArg Prod.snd h
  rw [← hid, ← hb, alloc_graph, SymbolGraph.get_alloc, if_pos rfl]

theorem get_alloc_self (s : Symbol) : (b.alloc s).2.graph.get (b.alloc s).1 = s :=
  get_of_alloc rfl

@[simp] theorem setProp_graph (id : SymbolId) (key : String) (t : SymbolId) :
    (b.setProp id key t).graph = b.graph.setProp id key t := rfl

@[simp] theorem markExported_graph (id : SymbolId) :
    (b.markExported id).graph = b.graph.markExported id := rfl

end Bindings

end ExportSurface

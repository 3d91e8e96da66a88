/-
Two states that agree up to a renaming of symbols.

Bindings that start from different globals give different positions to the same symbols, and the
global scope of one of them may have entries that the other lacks.  The two states are related if a
renaming maps the symbols of the first to those of the second, symbols that are mapped to each other
look the same and have the same properties apart from the hidden names, and what the renaming leaves
out cannot be reached except through a hidden name.

The same change on both sides keeps two states related: reporting, adding a symbol, setting a
visible property, flagging.  And related graphs give the same answers: what one of them has beyond
the other is reached through hidden names only, holds no value of the module, and at most leads back
to the global scope.

Main definitions:

* `Bindings.Renamed` — the relation between the two states;
* `Bindings.SameSurface` — the same diagnostics, and the same answers to every query.

Main results:

* `Bindings.Renamed.alloc`, `Bindings.Renamed.setProp`, `Bindings.Renamed.markExported` — what the
  same change on both sides keeps;
* `Bindings.Renamed.isExported_eq` — **related graphs export the same nodes**.
-/

import ExportSurface.Proofs.Reachability
import Mathlib.Data.Set.Basic
import Mathlib.Logic.Function.Basic

set_option autoImplicit false

namespace ExportSurface

open SymbolGraph (root)

/-! ### The relation -/

/-- The renaming `ρ` maps the symbols of the first state to those of the second.  The names in
`hidden` are unknown to the first; in the second they stand in the global scope only, where
`window` leads back to it and the others leave the range of the renaming for good. -/
structure Bindings.Renamed (ρ : SymbolId → SymbolId) (hidden : List String) (b b' : Bindings) :
    Prop where
  injective : Function.Injective ρ
  map_root : ρ root = root
  root_lt : root < b.graph.size
  map_fresh : ∀ i, ρ (b.graph.size + i) = b'.graph.size + i
  map_lt : ∀ n, n < b.graph.size → ρ n < b'.graph.size
  face_eq : ∀ n, (b'.graph.get (ρ n)).face = (b.graph.get n).face
  prop?_eq : ∀ n key, key ∉ hidden → b'.graph.prop? (ρ n) key = (b.graph.prop? n key).map ρ
  prop?_hidden : ∀ n key, key ∈ hidden → b.graph.prop? n key = none
  seeded : ∀ n key t, key ∈ hidden → b'.graph.prop? (ρ n) key = some t →
    n = root ∧ (key = "window" → t = root) ∧ (key ≠ "window" → t ∉ Set.range ρ)
  not_wraps_outside : ∀ {t}, t ∉ Set.range ρ → ∀ target, (b'.graph.get t).wraps target = false
  outside_target : ∀ t key u, t ∉ Set.range ρ → b'.graph.prop? t key = some u →
    u ∉ Set.range ρ
  key_visible : ∀ n key, (b.graph.get n).key? = some key → key ∉ hidden
  root_unnamed : "window" ∈ hidden → ∀ n key, b.graph.prop? n key ≠ some root
  root_unflagged : "window" ∈ hidden → (b.graph.get root).exported = false
  diagnostics_eq : b'.diagnostics = b.diagnostics

namespace Bindings.Renamed

variable {ρ : SymbolId → SymbolId} {hidden : List String} {b b' : Bindings}

theorem map_lt_iff (h : Renamed ρ hidden b b') {n : SymbolId} :
    ρ n < b'.graph.size ↔ n < b.graph.size := by
  constructor
  · intro hlt
    rcases Nat.lt_or_ge n b.graph.size with hn | hn
    · exact hn
    · obtain ⟨i, rfl⟩ := Nat.exists_eq_add_of_le hn
      rw [h.map_fresh] at hlt
      exact absurd hlt (Nat.not_lt.2 (Nat.le_add_right _ i))
  · exact h.map_lt n

theorem map_size (h : Renamed ρ hidden b b') : ρ b.graph.size = b'.graph.size := h.map_fresh 0

theorem hasMembers_eq (h : Renamed ρ hidden b b') (n : SymbolId) :
    (b'.graph.get (ρ n)).hasMembers = (b.graph.get n).hasMembers := by
  have hface := congrArg Symbol.hasMembers (h.face_eq n)
  exact hface

theorem key?_eq (h : Renamed ρ hidden b b') (n : SymbolId) :
    (b'.graph.get (ρ n)).key? = (b.graph.get n).key? := by
  have hface := congrArg Symbol.key? (h.face_eq n)
  exact hface

theorem member?_eq (h : Renamed ρ hidden b b') (n : SymbolId) {key : String}
    (hkey : key ∉ hidden) :
    b'.graph.member? (ρ n) key = (b.graph.member? n key).map ρ := by
  rw [SymbolGraph.member?, SymbolGraph.member?, h.hasMembers_eq n, h.prop?_eq n key hkey]
  split <;> rfl

/-! ### One change on both sides -/

theorem report (h : Renamed ρ hidden b b') (d : Diagnostic) :
    Renamed ρ hidden (b.report d) (b'.report d) :=
  { h with diagnostics_eq := congrArg (Array.push · d) h.diagnostics_eq }

/-- The same symbol added on both sides gets corresponding positions. -/
theorem alloc (h : Renamed ρ hidden b b') {s : Symbol} (hprops : s.props = .empty)
    (hkey : ∀ key, s.key? = some key → key ∉ hidden) :
    Renamed ρ hidden (b.alloc s).2 (b'.alloc s).2 where
  injective := h.injective
  map_root := h.map_root
  root_lt := by
    rw [alloc_graph, SymbolGraph.size_alloc]
    exact Nat.lt_succ_of_lt h.root_lt
  map_fresh := by
    intro i
    rw [alloc_graph, alloc_graph, SymbolGraph.size_alloc, SymbolGraph.size_alloc,
      Nat.add_assoc, Nat.add_assoc]
    exact h.map_fresh (1 + i)
  map_lt := by
    intro n hn
    rw [alloc_graph, SymbolGraph.size_alloc] at hn ⊢
    rcases Nat.lt_or_eq_of_le (Nat.le_of_lt_succ hn) with hn | rfl
    · exact Nat.lt_succ_of_lt (h.map_lt n hn)
    · rw [h.map_size]
      exact Nat.lt_succ_self _
  face_eq := by
    intro n
    rw [alloc_graph, alloc_graph, SymbolGraph.get_alloc, SymbolGraph.get_alloc, ← h.map_size]
    simp only [h.injective.eq_iff]
    split
    · rfl
    · exact h.face_eq n
  prop?_eq := by
    intro n key hkey
    rw [alloc_graph, alloc_graph, SymbolGraph.prop?_alloc _ hprops,
      SymbolGraph.prop?_alloc _ hprops]
    exact h.prop?_eq n key hkey
  prop?_hidden := by
    intro n key hkey
    rw [alloc_graph, SymbolGraph.prop?_alloc _ hprops]
    exact h.prop?_hidden n key hkey
  seeded := by
    intro n key t hkey ht
    rw [alloc_graph, SymbolGraph.prop?_alloc _ hprops] at ht
    exact h.seeded n key t hkey ht
  not_wraps_outside := by
    intro t ht target
    -- the new position is the image of the new position on the other side
    have hne : t ≠ b'.graph.size := by
      rintro rfl
      exact ht ⟨_, h.map_size⟩
    rw [alloc_graph, SymbolGraph.get_alloc, if_neg hne]
    exact h.not_wraps_outside ht target
  outside_target := by
    intro t key u ht hu
    rw [alloc_graph, SymbolGraph.prop?_alloc _ hprops] at hu
    exact h.outside_target t key u ht hu
  key_visible := by
    intro n key hn
    rw [alloc_graph, SymbolGraph.get_alloc] at hn
    split at hn
    · exact hkey key hn
    · exact h.key_visible n key hn
  root_unnamed := by
    intro hwindow n key
    rw [alloc_graph, SymbolGraph.prop?_alloc _ hprops]
    exact h.root_unnamed hwindow n key
  root_unflagged := by
    intro hwindow
    rw [alloc_graph, SymbolGraph.get_alloc, if_neg (Nat.ne_of_lt h.root_lt)]
    exact h.root_unflagged hwindow
  diagnostics_eq := h.diagnostics_eq

/-- A visible property set on both sides to corresponding symbols. -/
theorem setProp (h : Renamed ρ hidden b b') {id t : SymbolId} {key : String} (hkey : key ∉ hidden)
    (ht : "window" ∈ hidden → t ≠ root) :
    Renamed ρ hidden (b.setProp id key t) (b'.setProp (ρ id) key (ρ t)) where
  injective := h.injective
  map_root := h.map_root
  root_lt := by
    rw [setProp_graph, SymbolGraph.size_setProp]
    exact h.root_lt
  map_fresh := by
    rw [setProp_graph, setProp_graph, SymbolGraph.size_setProp, SymbolGraph.size_setProp]
    exact h.map_fresh
  map_lt := by
    rw [setProp_graph, setProp_graph, SymbolGraph.size_setProp, SymbolGraph.size_setProp]
    exact h.map_lt
  face_eq := by
    intro n
    rw [setProp_graph, setProp_graph, SymbolGraph.face_setProp, SymbolGraph.face_setProp]
    exact h.face_eq n
  prop?_eq := by
    intro n k hk
    rw [setProp_graph, setProp_graph, SymbolGraph.prop?_setProp, SymbolGraph.prop?_setProp]
    simp only [h.injective.eq_iff, h.map_lt_iff]
    split
    · rfl
    · exact h.prop?_eq n k hk
  prop?_hidden := by
    intro n k hk
    have hne : k ≠ key := fun heq => hkey (heq ▸ hk)
    rw [setProp_graph, SymbolGraph.prop?_setProp, if_neg fun hboth => hne hboth.2]
    exact h.prop?_hidden n k hk
  seeded := by
    intro n k u hk hu
    have hne : k ≠ key := fun heq => hkey (heq ▸ hk)
    rw [setProp_graph, SymbolGraph.prop?_setProp, if_neg fun hboth => hne hboth.2] at hu
    exact h.seeded n k u hk hu
  not_wraps_outside := by
    intro u hu target
    rw [setProp_graph, SymbolGraph.wraps_setProp]
    exact h.not_wraps_outside hu target
  outside_target := by
    intro u k v hu hv
    have hne : u ≠ ρ id := fun heq => hu ⟨id, heq.symm⟩
    rw [setProp_graph, SymbolGraph.prop?_setProp, if_neg fun hboth => hne hboth.1.1] at hv
    exact h.outside_target u k v hu hv
  key_visible := by
    intro n k hn
    rw [setProp_graph, Symbol.key?, SymbolGraph.kind_setProp, SymbolGraph.scalar_setProp] at hn
    exact h.key_visible n k hn
  root_unnamed := by
    intro hwindow n k
    rw [setProp_graph, SymbolGraph.prop?_setProp]
    split
    · intro heq
      exact ht hwindow (Option.some.inj heq)
    · exact h.root_unnamed hwindow n k
  root_unflagged := by
    intro hwindow
    rw [setProp_graph, SymbolGraph.exported_setProp]
    exact h.root_unflagged hwindow
  diagnostics_eq := h.diagnostics_eq

/-- Corresponding symbols flagged on both sides. -/
theorem markExported (h : Renamed ρ hidden b b') {id : SymbolId}
    (hid : "window" ∈ hidden → id ≠ root) :
    Renamed ρ hidden (b.markExported id) (b'.markExported (ρ id)) where
  injective := h.injective
  map_root := h.map_root
  root_lt := by
    rw [markExported_graph, SymbolGraph.size_markExported]
    exact h.root_lt
  map_fresh := by
    rw [markExported_graph, markExported_graph, SymbolGraph.size_markExported,
      SymbolGraph.size_markExported]
    exact h.map_fresh
  map_lt := by
    rw [markExported_graph, markExported_graph, SymbolGraph.size_markExported,
      SymbolGraph.size_markExported]
    exact h.map_lt
  face_eq := by
    intro n
    rw [markExported_graph, markExported_graph, SymbolGraph.face_markExported,
      SymbolGraph.face_markExported, h.face_eq n]
    simp only [h.injective.eq_iff, h.map_lt_iff]
  prop?_eq := by
    intro n k hk
    rw [markExported_graph, markExported_graph, SymbolGraph.prop?_markExported,
      SymbolGraph.prop?_markExported]
    exact h.prop?_eq n k hk
  prop?_hidden := by
    intro n k hk
    rw [markExported_graph, SymbolGraph.prop?_markExported]
    exact h.prop?_hidden n k hk
  seeded := by
    intro n k u hk hu
    rw [markExported_graph, SymbolGraph.prop?_markExported] at hu
    exact h.seeded n k u hk hu
  not_wraps_outside := by
    intro u hu target
    rw [markExported_graph, SymbolGraph.wraps_markExported]
    exact h.not_wraps_outside hu target
  outside_target := by
    intro u k v hu hv
    rw [markExported_graph, SymbolGraph.prop?_markExported] at hv
    exact h.outside_target u k v hu hv
  key_visible := by
    intro n k hn
    rw [markExported_graph, Symbol.key?, SymbolGraph.kind_markExported,
      SymbolGraph.scalar_markExported] at hn
    exact h.key_visible n k hn
  root_unnamed := by
    intro hwindow n k
    rw [markExported_graph, SymbolGraph.prop?_markExported]
    exact h.root_unnamed hwindow n k
  root_unflagged := by
    intro hwindow
    rw [markExported_graph, SymbolGraph.get_markExported,
      if_neg fun hboth => hid hwindow hboth.1.symm]
    exact h.root_unflagged hwindow
  diagnostics_eq := h.diagnostics_eq

/-- Setting a property on the second side only, to what it is there already. -/
theorem setProp_same (h : Renamed ρ hidden b b') {id t : SymbolId} {key : String}
    (hsame : b'.graph.prop? id key = some t) : Renamed ρ hidden b (b'.setProp id key t) := by
  have hprop : ∀ j k, (b'.setProp id key t).graph.prop? j k = b'.graph.prop? j k := by
    intro j k
    rw [setProp_graph, SymbolGraph.prop?_setProp]
    split
    · next hboth => rw [hboth.1.1, hboth.2, hsame]
    · rfl
  have hsize : (b'.setProp id key t).graph.size = b'.graph.size := by simp
  exact
    { h with
      map_fresh := by
        rw [hsize]
        exact h.map_fresh
      map_lt := by
        rw [hsize]
        exact h.map_lt
      face_eq := fun n => (SymbolGraph.face_setProp b'.graph id key t (ρ n)).trans (h.face_eq n)
      prop?_eq := fun n k hk => (hprop (ρ n) k).trans (h.prop?_eq n k hk)
      seeded := fun n k u hk hu => h.seeded n k u hk (hprop (ρ n) k ▸ hu)
      not_wraps_outside := fun {u} hu target =>
        (SymbolGraph.wraps_setProp b'.graph id key t u target).trans
          (h.not_wraps_outside hu target)
      outside_target := fun u k v hu hv => h.outside_target u k v hu (hprop u k ▸ hv) }

end Bindings.Renamed

/-! ### Searches in related graphs -/

namespace Bindings.Renamed

variable {ρ : SymbolId → SymbolId} {hidden : List String} {b b' : Bindings}

theorem kind_eq (h : Renamed ρ hidden b b') (n : SymbolId) :
    (b'.graph.get (ρ n)).kind = (b.graph.get n).kind := by
  have hface := congrArg Symbol.kind (h.face_eq n)
  exact hface

theorem exported_eq (h : Renamed ρ hidden b b') (n : SymbolId) :
    (b'.graph.get (ρ n)).exported = (b.graph.get n).exported := by
  have hface := congrArg Symbol.exported (h.face_eq n)
  exact hface

theorem wraps_eq (h : Renamed ρ hidden b b') (n : SymbolId) (target : NodeId) :
    (b'.graph.get (ρ n)).wraps target = (b.graph.get n).wraps target := by
  have hface := congrArg (Symbol.wraps · target) (h.face_eq n)
  exact hface

theorem edge_map (h : Renamed ρ hidden b b') {u v : SymbolId} (he : b.graph.Edge u v) :
    b'.graph.Edge (ρ u) (ρ v) := by
  obtain ⟨hkind, key, hkey⟩ := he
  have hvisible : key ∉ hidden := by
    intro hmem
    rw [h.prop?_hidden u key hmem] at hkey
    contradiction
  refine ⟨h.kind_eq u ▸ hkind, key, ?_⟩
  rw [h.prop?_eq u key hvisible, hkey, Option.map_some]

/-- An edge of the second graph from a renamed symbol is a renamed edge, or the loop of `window` at
the global scope, or it leaves the range of the renaming. -/
theorem edge_cases (h : Renamed ρ hidden b b') {u w : SymbolId} (he : b'.graph.Edge (ρ u) w) :
    (∃ v, w = ρ v ∧ b.graph.Edge u v) ∨ ("window" ∈ hidden ∧ u = root ∧ w = ρ root) ∨
      w ∉ Set.range ρ := by
  obtain ⟨hkind, key, hkey⟩ := he
  rw [h.kind_eq u] at hkind
  by_cases hmem : key ∈ hidden
  · obtain ⟨rfl, hwindow, hother⟩ := h.seeded u key w hmem hkey
    by_cases hkeyWindow : key = "window"
    · exact .inr (.inl ⟨hkeyWindow ▸ hmem, rfl, (hwindow hkeyWindow).trans h.map_root.symm⟩)
    · exact .inr (.inr (hother hkeyWindow))
  · rw [h.prop?_eq u key hmem, Option.map_eq_some_iff] at hkey
    obtain ⟨v, hv, rfl⟩ := hkey
    exact .inl ⟨v, rfl, ⟨hkind, key, hv⟩⟩

theorem reaches_map (h : Renamed ρ hidden b b') {u v : SymbolId} (hr : b.graph.Reaches u v) :
    b'.graph.Reaches (ρ u) (ρ v) := by
  induction hr with
  | refl => exact .refl _
  | step he _ ih => exact .step (h.edge_map he) ih

theorem reaches_outside (h : Renamed ρ hidden b b') {t w : SymbolId} (ht : t ∉ Set.range ρ)
    (hr : b'.graph.Reaches t w) : w ∉ Set.range ρ := by
  induction hr with
  | refl => exact ht
  | step he _ ih =>
      obtain ⟨-, key, hkey⟩ := he
      exact ih (h.outside_target _ key _ ht hkey)

theorem reaches_cases (h : Renamed ρ hidden b b') {u w : SymbolId}
    (hr : b'.graph.Reaches (ρ u) w) :
    (∃ v, w = ρ v ∧ b.graph.Reaches u v) ∨ w ∉ Set.range ρ := by
  generalize hstart : ρ u = t at hr
  induction hr generalizing u with
  | refl => exact .inl ⟨u, hstart.symm, .refl u⟩
  | step he hr ih =>
      subst hstart
      rcases h.edge_cases he with ⟨v, rfl, hv⟩ | ⟨-, rfl, rfl⟩ | hout
      · rcases ih rfl with ⟨x, rfl, hx⟩ | hout
        · exact .inl ⟨x, rfl, .step hv hx⟩
        · exact .inr hout
      · -- the loop of `window` leads nowhere new: the rest of the path starts here as well
        exact ih rfl
      · exact .inr (h.reaches_outside hout hr)

theorem findNode_eq (h : Renamed ρ hidden b b') (target : NodeId) (u : SymbolId) :
    b'.graph.findNode target (ρ u) = b.graph.findNode target u := by
  rw [Bool.eq_iff_iff, SymbolGraph.findNode_eq_true_iff, SymbolGraph.findNode_eq_true_iff]
  constructor
  · rintro ⟨w, hr, hw⟩
    rcases h.reaches_cases hr with ⟨v, rfl, hv⟩ | hout
    · exact ⟨v, hv, h.wraps_eq v target ▸ hw⟩
    · rw [h.not_wraps_outside hout] at hw
      contradiction
  · rintro ⟨v, hr, hv⟩
    exact ⟨ρ v, h.reaches_map hr, (h.wraps_eq v target).trans hv⟩

theorem findNode_outside (h : Renamed ρ hidden b b') (target : NodeId) {t : SymbolId}
    (ht : t ∉ Set.range ρ) : b'.graph.findNode target t = false := by
  rw [Bool.eq_false_iff]
  intro hfound
  obtain ⟨w, hr, hw⟩ := SymbolGraph.findNode_eq_true_iff.1 hfound
  rw [h.not_wraps_outside (h.reaches_outside ht hr)] at hw
  contradiction

theorem findExported_eq (h : Renamed ρ hidden b b') (target : NodeId) :
    b'.graph.findExported target root = b.graph.findExported target root := by
  rw [Bool.eq_iff_iff, SymbolGraph.findExported_eq_true_iff, SymbolGraph.findExported_eq_true_iff]
  simp only [← SymbolGraph.findNode_eq_true_iff, SymbolGraph.transGen_edge_iff]
  constructor
  · rintro ⟨s, ⟨u, hu, he⟩, hs, hfound⟩
    rw [← h.map_root] at hu
    rcases h.reaches_cases hu with ⟨v, rfl, hv⟩ | hout
    · rcases h.edge_cases he with ⟨x, rfl, hx⟩ | ⟨hwindow, rfl, rfl⟩ | hout
      · rw [h.exported_eq] at hs
        rw [h.findNode_eq] at hfound
        exact ⟨x, ⟨v, hv, hx⟩, hs, hfound⟩
      · -- While `window` is hidden, the global scope itself is never flagged.
        rw [h.exported_eq, h.root_unflagged hwindow] at hs
        contradiction
      · rw [h.findNode_outside target hout] at hfound
        contradiction
    · obtain ⟨-, key, hkey⟩ := he
      rw [h.findNode_outside target (h.outside_target u key s hout hkey)] at hfound
      contradiction
  · rintro ⟨s, ⟨u, hu, he⟩, hs, hfound⟩
    have hu' := h.reaches_map hu
    rw [h.map_root] at hu'
    exact ⟨ρ s, ⟨ρ u, hu', h.edge_map he⟩, (h.exported_eq s).trans hs,
      (h.findNode_eq target s).trans hfound⟩

/-- `module` is hidden along with `exports`, or neither is. -/
theorem any_moduleExports_eq (h : Renamed ρ hidden b b')
    (hpair : "module" ∉ hidden → "exports" ∉ hidden) (target : NodeId) :
    b'.graph.moduleExports?.any (b'.graph.findNode target) =
      b.graph.moduleExports?.any (b.graph.findNode target) := by
  rw [SymbolGraph.moduleExports?, SymbolGraph.moduleExports?]
  by_cases hmodule : "module" ∈ hidden
  · rw [h.prop?_hidden root "module" hmodule]
    cases hfound : b'.graph.prop? root "module" with
    | none => rfl
    | some m =>
        have hm : b'.graph.prop? (ρ root) "module" = some m := h.map_root.symm ▸ hfound
        have hout := (h.seeded root "module" m hmodule hm).2.2 (by decide)
        dsimp only
        cases hexports : b'.graph.prop? m "exports" with
        | none => rfl
        | some e => exact h.findNode_outside target (h.outside_target m "exports" e hout hexports)
  · have hm := h.prop?_eq root "module" hmodule
    rw [h.map_root] at hm
    rw [hm]
    cases b.graph.prop? root "module" with
    | none => rfl
    | some m =>
        dsimp only [Option.map_some]
        rw [h.prop?_eq m "exports" (hpair hmodule)]
        cases b.graph.prop? m "exports" with
        | none => rfl
        | some e => exact h.findNode_eq target e

/-- **Related graphs export the same nodes.** -/
theorem isExported_eq (h : Renamed ρ hidden b b')
    (hpair : "module" ∉ hidden → "exports" ∉ hidden) (target : NodeId)
    (query : AnalysisOptions) :
    b'.graph.isExported target query = b.graph.isExported target query := by
  rw [SymbolGraph.isExported, SymbolGraph.isExported, h.any_moduleExports_eq hpair target,
    h.findExported_eq target]

end Bindings.Renamed

/-! ### The same surface -/

namespace Bindings

/-- The same diagnostics in the same order, and the same answer to every query. -/
def SameSurface (b b' : Bindings) : Prop :=
  b.diagnostics = b'.diagnostics ∧
    ∀ (target : NodeId) (query : AnalysisOptions),
      b.graph.isExported target query = b'.graph.isExported target query

namespace SameSurface

theorem refl (b : Bindings) : SameSurface b b := ⟨rfl, fun _ _ => rfl⟩

theorem symm {b b' : Bindings} (h : SameSurface b b') : SameSurface b' b :=
  ⟨h.1.symm, fun target query => (h.2 target query).symm⟩

theorem trans {b b' b'' : Bindings} (h : SameSurface b b') (h' : SameSurface b' b'') :
    SameSurface b b'' :=
  ⟨h.1.trans h'.1, fun target query => (h.2 target query).trans (h'.2 target query)⟩

/-- A switch makes no difference if turning it on makes none. -/
theorem of_ne {f : Bool → Bindings} {x y : Bool} (h : x ≠ y → SameSurface (f false) (f true)) :
    SameSurface (f x) (f y) := by
  cases x with
  | false =>
      cases y with
      | false => exact refl _
      | true => exact h nofun
  | true =>
      cases y with
      | false => exact (h nofun).symm
      | true => exact refl _

end SameSurface

theorem Renamed.sameSurface {ρ : SymbolId → SymbolId} {hidden : List String} {b b' : Bindings}
    (h : Renamed ρ hidden b b') (hpair : "module" ∉ hidden → "exports" ∉ hidden) :
    SameSurface b b' :=
  ⟨h.diagnostics_eq.symm, fun target query => (h.isExported_eq hpair target query).symm⟩

end Bindings

end ExportSurface

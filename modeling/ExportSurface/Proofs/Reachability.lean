/-
The two searches of the symbol graph decide reachability.

`ExportSurface/Symbol/Search.lean` defines the path search and the export search beside the
relation `SymbolGraph.Reaches`.  This module proves that the answers are those of the relation, on
every graph, whatever its cycles.

The path search unmarks a symbol when it leaves it, so no set of finished symbols is available for
the usual argument.  What it keeps is that every *simple* path stays to be tried: from a symbol off
the current path, the target is reachable at all exactly when it is reachable off the path
(`SymbolGraph.ReachesOff.exit`).  The export search marks for good, and the usual argument applies:
the seen symbols that wait no longer have only seen members, none of them a hit.

Main definitions:

* `SymbolGraph.ReachesOff` — reachability that avoids given symbols;
* `SymbolGraph.Promising` — some member that is still to be tried leads to the target;
* `SymbolGraph.Hit` — an exported member of the symbol reaches the target;
* `SymbolGraph.SameUpToOrder` — two graphs that differ in the order of properties only.

Main results:

* `SymbolGraph.walk_eq_true_iff`, `SymbolGraph.findNode_eq_true_iff` — **the path search decides
  reachability**;
* `SymbolGraph.explore_eq_true_iff`, `SymbolGraph.findExported_eq_true_iff` — **the export search
  decides reachability from an exported symbol**;
* `SymbolGraph.isExported_eq_true_iff` — the export surface in terms of reachability.
-/

import ExportSurface.Analysis
import ExportSurface.Proofs.GraphChanges
import Mathlib.Logic.Relation

set_option autoImplicit false

namespace ExportSurface.SymbolGraph

variable {g : SymbolGraph} {target : NodeId}

/-! ### Edges -/

/-- **The searches follow the edges**: the members of a symbol are where its edges lead. -/
theorem edge_iff {u v : SymbolId} : g.Edge u v ↔ v ∈ g.members u := by
  simp only [Edge, members, Symbol.hasMembers, prop?, bne_iff_ne]
  by_cases hk : (g.get u).kind = .literal
  · simp [hk]
  · simp [hk, Props.mem_targets_iff]

/-- The searches look for an object that was made for the node. -/
theorem wraps_iff {s : Symbol} :
    s.wraps target = true ↔ s.kind = .object ∧ s.value = some target := by
  simp [Symbol.wraps]

/-- Past the end of the arena there is nothing to follow. -/
theorem not_edge_of_size_le {u v : SymbolId} (h : g.size ≤ u) : ¬ g.Edge u v := by
  rintro ⟨-, key, hkey⟩
  rw [prop?_of_size_le h] at hkey
  cases hkey

theorem not_wraps_of_size_le {u : SymbolId} (h : g.size ≤ u) : (g.get u).wraps target = false := by
  rw [get_of_size_le h]
  rfl

namespace Reaches

theorem trans {u v w : SymbolId} (h₁ : g.Reaches u v) (h₂ : g.Reaches v w) : g.Reaches u w := by
  induction h₁ with
  | refl => exact h₂
  | step he _ ih => exact .step he (ih h₂)

theorem tail {u v w : SymbolId} (h : g.Reaches u v) (he : g.Edge v w) : g.Reaches u w :=
  h.trans (.step he (.refl w))

end Reaches

/-- One or more edges are an edge after zero or more of them. -/
theorem transGen_edge_iff {u s : SymbolId} :
    Relation.TransGen g.Edge u s ↔ ∃ v, g.Reaches u v ∧ g.Edge v s := by
  constructor
  · intro h
    induction h with
    | single he => exact ⟨u, .refl u, he⟩
    | tail _ he ih =>
        obtain ⟨v, hv, hvs⟩ := ih
        exact ⟨_, hv.tail hvs, he⟩
  · rintro ⟨v, hv, he⟩
    induction hv with
    | refl => exact .single he
    | step he' _ ih => exact .head he' (ih he)

/-! ### Reachability off a path -/

/-- Zero or more member accesses lead from one symbol to another, and none of the symbols on the
way, the ends included, is to be avoided. -/
inductive ReachesOff (g : SymbolGraph) (avoid : List SymbolId) : SymbolId → SymbolId → Prop where
  | refl {u : SymbolId} : u ∉ avoid → ReachesOff g avoid u u
  | step {u v w : SymbolId} :
      u ∉ avoid → g.Edge u v → ReachesOff g avoid v w → ReachesOff g avoid u w

namespace ReachesOff

variable {avoid : List SymbolId} {u w : SymbolId}

theorem reaches (h : g.ReachesOff avoid u w) : g.Reaches u w := by
  induction h with
  | refl _ => exact .refl _
  | step _ he _ ih => exact .step he ih

theorem start_not_mem (h : g.ReachesOff avoid u w) : u ∉ avoid := by
  cases h with
  | refl hu => exact hu
  | step hu _ _ => exact hu

theorem of_reaches (h : g.Reaches u w) : g.ReachesOff [] u w := by
  induction h with
  | refl => exact .refl List.not_mem_nil
  | step he _ ih => exact .step List.not_mem_nil he ih

theorem of_cons {c : SymbolId} (h : g.ReachesOff (c :: avoid) u w) : g.ReachesOff avoid u w := by
  induction h with
  | refl hu => exact .refl fun hm => hu (List.mem_cons_of_mem c hm)
  | step hu he _ ih => exact .step (fun hm => hu (List.mem_cons_of_mem c hm)) he ih

/-- A way either misses a symbol, or ends in it, or leaves it for the last time. -/
theorem exit (c : SymbolId) (h : g.ReachesOff avoid u w) :
    g.ReachesOff (c :: avoid) u w ∨ w = c ∨ ∃ d, g.Edge c d ∧ g.ReachesOff (c :: avoid) d w := by
  induction h with
  | @refl u hu =>
      by_cases huc : u = c
      · exact .inr (.inl huc)
      · refine .inl (.refl ?_)
        rw [List.mem_cons]
        rintro (h | h)
        · exact huc h
        · exact hu h
  | @step u v w hu he _ ih =>
      rcases ih with ih | ih | ih
      · by_cases huc : u = c
        · subst huc
          exact .inr (.inr ⟨v, he, ih⟩)
        · refine .inl (.step ?_ he ih)
          rw [List.mem_cons]
          rintro (h | h)
          · exact huc h
          · exact hu h
      · exact .inr (.inl ih)
      · exact .inr (.inr ih)

end ReachesOff

/-! ### The path search -/

/-- The target can be found from a symbol without entering the given ones. -/
def Leads (g : SymbolGraph) (target : NodeId) (avoid : List SymbolId) (c : SymbolId) : Prop :=
  ∃ w, (g.get w).wraps target = true ∧ g.ReachesOff avoid c w

/-- Some member that is still to be tried leads to the target, off the path up to it. -/
def Promising (g : SymbolGraph) (target : NodeId) : List Frame → Prop
  | [] => False
  | f :: rest =>
      (∃ c ∈ f.pending, g.Leads target (onPath (f :: rest)) c) ∨ g.Promising target rest

theorem promising_leave {s : SymbolId} {rest : List Frame} :
    g.Promising target (⟨s, []⟩ :: rest) ↔ g.Promising target rest := by
  simp [Promising]

theorem promising_try {s c : SymbolId} {cs : List SymbolId} {rest : List Frame} :
    g.Promising target (⟨s, c :: cs⟩ :: rest) ↔
      g.Leads target (onPath (⟨s, c :: cs⟩ :: rest)) c ∨ g.Promising target (⟨s, cs⟩ :: rest) := by
  have hpath : onPath (⟨s, cs⟩ :: rest) = onPath (⟨s, c :: cs⟩ :: rest) := rfl
  simp only [Promising, List.mem_cons, hpath]
  constructor
  · rintro (⟨d, rfl | hd, hlead⟩ | hrest)
    · exact .inl hlead
    · exact .inr (.inl ⟨d, hd, hlead⟩)
    · exact .inr (.inr hrest)
  · rintro (hlead | ⟨d, hd, hlead⟩ | hrest)
    · exact .inl ⟨c, .inl rfl, hlead⟩
    · exact .inl ⟨d, .inr hd, hlead⟩
    · exact .inr hrest

/-- From a symbol that does not wrap the target, the target can be found exactly when it can be
found from a member without coming back. -/
theorem leads_iff_of_not_wraps {c : SymbolId} {avoid : List SymbolId} (hc : c ∉ avoid)
    (hw : (g.get c).wraps target = false) :
    g.Leads target avoid c ↔ ∃ d ∈ g.members c, g.Leads target (c :: avoid) d := by
  constructor
  · rintro ⟨w, hwraps, h⟩
    rcases h.exit c with h' | h' | ⟨d, he, h'⟩
    · exact absurd (List.mem_cons_self ..) h'.start_not_mem
    · subst h'
      rw [hw] at hwraps
      cases hwraps
    · exact ⟨d, edge_iff.1 he, w, hwraps, h'⟩
  · rintro ⟨d, he, w, hwraps, h⟩
    exact ⟨w, hwraps, .step hc (edge_iff.2 he) h.of_cons⟩

/-- Past the end of the arena nothing is found. -/
theorem not_leads_of_size_le {c : SymbolId} {avoid : List SymbolId} (hc : g.size ≤ c) :
    ¬ g.Leads target avoid c := by
  rintro ⟨w, hw, h⟩
  cases h with
  | refl _ =>
      rw [not_wraps_of_size_le hc] at hw
      cases hw
  | step _ he _ => exact not_edge_of_size_le hc he

/-- **The walk finds the target exactly when some pending member leads to it.** -/
theorem walk_eq_true_iff {frames : List Frame} {marked : Std.HashSet SymbolId}
    (h : PathState g frames marked) :
    g.walk target frames marked h = true ↔ g.Promising target frames := by
  induction frames, marked, h using walk.induct g target with
  | case1 marked h _ => simp [walk, Promising]
  | case2 s rest marked h _ ih => rw [walk, ih, promising_leave]
  | case3 s c cs rest marked h hc hw _ =>
      have hoff : c ∉ onPath (⟨s, c :: cs⟩ :: rest) := fun hm => hc.2 ((h.mem_marked c).2 hm)
      rw [walk, dif_pos hc, if_pos hw, promising_try]
      exact iff_of_true rfl (.inl ⟨c, hw, .refl hoff⟩)
  | case4 s c cs rest marked h hc hw _ ih =>
      -- the members of `c` become pending, and `c` joins the path that they avoid
      have hoff : c ∉ onPath (⟨s, c :: cs⟩ :: rest) := fun hm => hc.2 ((h.mem_marked c).2 hm)
      rw [walk, dif_pos hc, if_neg hw, ih, promising_try,
        leads_iff_of_not_wraps hoff (Bool.eq_false_iff.2 hw)]
      rfl
  | case5 s c cs rest marked h hc _ ih =>
      have hnone : ¬ g.Leads target (onPath (⟨s, c :: cs⟩ :: rest)) c := by
        by_cases hlt : c < g.size
        · rintro ⟨w, -, hreach⟩
          have hm : c ∈ marked := Classical.not_not.1 fun hm => hc ⟨hlt, hm⟩
          exact hreach.start_not_mem ((h.mem_marked c).1 hm)
        · exact not_leads_of_size_le (Nat.le_of_not_lt hlt)
      rw [walk, dif_neg hc, ih, promising_try, or_iff_right hnone]

theorem leads_nil_iff {start : SymbolId} :
    g.Leads target [] start ↔ ∃ w, g.Reaches start w ∧ (g.get w).wraps target = true := by
  constructor
  · rintro ⟨w, hw, h⟩
    exact ⟨w, h.reaches, hw⟩
  · rintro ⟨w, h, hw⟩
    exact ⟨w, hw, .of_reaches h⟩

/-- **The path search decides reachability.** -/
theorem findNode_eq_true_iff {start : SymbolId} :
    g.findNode target start = true ↔
      ∃ w, g.Reaches start w ∧ (g.get w).wraps target = true := by
  rw [← leads_nil_iff, findNode]
  split
  case isTrue hlt =>
      cases hw : (g.get start).wraps target with
      | true => exact iff_of_true rfl ⟨start, hw, .refl List.not_mem_nil⟩
      | false =>
          rw [Bool.false_or, walk_eq_true_iff, leads_iff_of_not_wraps List.not_mem_nil hw]
          simp [Promising, onPath]
  case isFalse hlt =>
      exact iff_of_false Bool.false_ne_true (not_leads_of_size_le (Nat.le_of_not_lt hlt))

/-! ### The export search -/

/-- An exported member of the symbol reaches the target. -/
def Hit (g : SymbolGraph) (target : NodeId) (s : SymbolId) : Prop :=
  ∃ c ∈ g.members s, (g.get c).exported = true ∧ g.findNode target c = true

theorem any_members_iff_hit {s : SymbolId} :
    ((g.members s).any fun c => (g.get c).exported && g.findNode target c) = true ↔
      g.Hit target s := by
  simp only [List.any_eq_true, Bool.and_eq_true, Hit]

theorem not_hit_of_size_le {s : SymbolId} (h : g.size ≤ s) : ¬ g.Hit target s := by
  rintro ⟨c, hc, -⟩
  exact not_edge_of_size_le h (edge_iff.2 hc)

theorem mem_enqueue_seen {x : SymbolId} (children : List SymbolId) (seen : Std.HashSet SymbolId)
    (waiting : List SymbolId) :
    x ∈ (g.enqueue children seen waiting).1 ↔ x ∈ seen ∨ (x ∈ children ∧ x < g.size) := by
  induction children generalizing seen waiting with
  | nil => simp [enqueue]
  | cons c children ih =>
      by_cases h : c < g.size ∧ c ∉ seen
      · rw [enqueue, if_pos h, ih, Std.HashSet.mem_insert, beq_iff_eq, List.mem_cons]
        constructor
        · rintro ((rfl | hx) | hx)
          · exact .inr ⟨.inl rfl, h.1⟩
          · exact .inl hx
          · exact .inr ⟨.inr hx.1, hx.2⟩
        · rintro (hx | ⟨rfl | hx, hlt⟩)
          · exact .inl (.inr hx)
          · exact .inl (.inl rfl)
          · exact .inr ⟨hx, hlt⟩
      · rw [enqueue, if_neg h, ih, List.mem_cons]
        constructor
        · rintro (hx | hx)
          · exact .inl hx
          · exact .inr ⟨.inr hx.1, hx.2⟩
        · rintro (hx | ⟨rfl | hx, hlt⟩)
          · exact .inl hx
          · exact .inl (Classical.not_not.1 fun hx => h ⟨hlt, hx⟩)
          · exact .inr ⟨hx, hlt⟩

/-- A symbol that is newly seen waits, and what waits is kept. -/
theorem mem_enqueue_waiting {x : SymbolId} (children : List SymbolId) (seen : Std.HashSet SymbolId)
    (waiting : List SymbolId) :
    x ∈ (g.enqueue children seen waiting).2 ↔
      x ∈ waiting ∨ (x ∈ (g.enqueue children seen waiting).1 ∧ x ∉ seen) := by
  induction children generalizing seen waiting with
  | nil =>
      simp only [enqueue]
      exact ⟨.inl, fun h => h.elim id fun h' => absurd h'.1 h'.2⟩
  | cons c children ih =>
      by_cases h : c < g.size ∧ c ∉ seen
      · rw [enqueue, if_pos h, ih, List.mem_cons, Std.HashSet.mem_insert, beq_iff_eq]
        constructor
        · rintro ((rfl | hx) | ⟨hx, hn⟩)
          · refine .inr ⟨?_, h.2⟩
            rw [mem_enqueue_seen]
            exact .inl Std.HashSet.mem_insert_self
          · exact .inl hx
          · exact .inr ⟨hx, fun hs => hn (.inr hs)⟩
        · rintro (hx | ⟨hx, hn⟩)
          · exact .inl (.inr hx)
          · by_cases hxc : c = x
            · exact .inl (.inl hxc.symm)
            · exact .inr ⟨hx, fun hs => hs.elim hxc hn⟩
      · rw [enqueue, if_neg h, ih]

/-- What holds of the seen and of the waiting symbols between two expansions. -/
structure Frontier (g : SymbolGraph) (target : NodeId) (seen : Std.HashSet SymbolId)
    (waiting : List SymbolId) : Prop where
  /-- Only seen symbols wait. -/
  seen_of_waiting : ∀ s ∈ waiting, s ∈ seen
  /-- An expanded symbol is no hit. -/
  not_hit : ∀ s ∈ seen, s ∉ waiting → ¬ g.Hit target s
  /-- The members of an expanded symbol are seen. -/
  closed : ∀ s ∈ seen, s ∉ waiting → ∀ c ∈ g.members s, c < g.size → c ∈ seen

namespace Frontier

variable {seen : Std.HashSet SymbolId} {waiting : List SymbolId} {s : SymbolId}

theorem start (s : SymbolId) : g.Frontier target (.insert ∅ s) [s] where
  seen_of_waiting := by
    intro t ht
    rw [List.mem_singleton.1 ht]
    exact Std.HashSet.mem_insert_self
  not_hit := by
    intro t ht hn
    simp only [Std.HashSet.mem_insert, beq_iff_eq, Std.HashSet.not_mem_empty, or_false] at ht
    exact absurd (List.mem_singleton.2 ht.symm) hn
  closed := by
    intro t ht hn
    simp only [Std.HashSet.mem_insert, beq_iff_eq, Std.HashSet.not_mem_empty, or_false] at ht
    exact absurd (List.mem_singleton.2 ht.symm) hn

/-- After an expansion, a symbol that does not wait is the expanded one or was expanded before. -/
theorem eq_or_expanded {t : SymbolId} (ht : t ∈ (g.enqueue (g.members s) seen waiting).1)
    (hn : t ∉ (g.enqueue (g.members s) seen waiting).2) :
    t ∈ seen ∧ (t = s ∨ t ∉ s :: waiting) := by
  rw [mem_enqueue_waiting] at hn
  have hseen : t ∈ seen := Classical.not_not.1 fun h => hn (.inr ⟨ht, h⟩)
  refine ⟨hseen, ?_⟩
  by_cases hts : t = s
  · exact .inl hts
  · refine .inr fun hmem => ?_
    rcases List.mem_cons.1 hmem with h | h
    · exact hts h
    · exact hn (.inl h)

/-- Expanding a symbol that is no hit keeps the frontier. -/
theorem expand (h : g.Frontier target seen (s :: waiting)) (hs : ¬ g.Hit target s) :
    g.Frontier target (g.enqueue (g.members s) seen waiting).1
      (g.enqueue (g.members s) seen waiting).2 where
  seen_of_waiting := by
    intro t ht
    rcases (mem_enqueue_waiting _ _ _).1 ht with ht | ht
    · exact (mem_enqueue_seen _ _ _).2 (.inl (h.seen_of_waiting t (List.mem_cons_of_mem s ht)))
    · exact ht.1
  not_hit := by
    intro t ht hn
    rcases eq_or_expanded ht hn with ⟨-, rfl | hexp⟩
    · exact hs
    · exact h.not_hit t (eq_or_expanded ht hn).1 hexp
  closed := by
    intro t ht hn c hc hlt
    rw [mem_enqueue_seen]
    rcases eq_or_expanded ht hn with ⟨hseen, rfl | hexp⟩
    · exact .inr ⟨hc, hlt⟩
    · exact .inl (h.closed t hseen hexp c hc hlt)

/-- When nothing waits, no hit can be reached from a seen symbol. -/
theorem not_hit_of_reaches {u : SymbolId} (h : g.Frontier target seen []) (hs : s ∈ seen)
    (hu : g.Reaches s u) : ¬ g.Hit target u := by
  induction hu with
  | refl s => exact h.not_hit s hs List.not_mem_nil
  | @step s v u he hrest ih =>
      by_cases hlt : v < g.size
      · exact ih (h.closed s hs List.not_mem_nil v (edge_iff.1 he) hlt)
      · have hle := Nat.le_of_not_lt hlt
        cases hrest with
        | refl => exact not_hit_of_size_le hle
        | step he' _ => exact absurd he' (not_edge_of_size_le hle)

end Frontier

/-- **The exploration finds a hit exactly when one can be reached from a seen symbol.** -/
theorem explore_eq_true_iff {seen : Std.HashSet SymbolId} {waiting : List SymbolId}
    (h : g.Frontier target seen waiting) :
    g.explore target seen waiting = true ↔
      ∃ s ∈ seen, ∃ u, g.Reaches s u ∧ g.Hit target u := by
  induction seen, waiting using explore.induct g target with
  | case1 seen =>
      rw [explore]
      refine iff_of_false Bool.false_ne_true ?_
      rintro ⟨s, hs, u, hu, hit⟩
      exact h.not_hit_of_reaches hs hu hit
  | case2 seen s waiting hit =>
      rw [explore, if_pos hit]
      have hs := h.seen_of_waiting s (List.mem_cons_self ..)
      exact iff_of_true rfl ⟨s, hs, s, .refl s, any_members_iff_hit.1 hit⟩
  | case3 seen s waiting hit ih =>
      have hs := h.seen_of_waiting s (List.mem_cons_self ..)
      rw [explore, if_neg hit, ih (h.expand fun h' => hit (any_members_iff_hit.2 h'))]
      -- a newly seen symbol is a member of `s`, which was seen already
      constructor
      · rintro ⟨t, ht, u, hu, hhit⟩
        rcases (mem_enqueue_seen _ _ _).1 ht with ht | ⟨ht, -⟩
        · exact ⟨t, ht, u, hu, hhit⟩
        · exact ⟨s, hs, u, .step (edge_iff.2 ht) hu, hhit⟩
      · rintro ⟨t, ht, u, hu, hhit⟩
        exact ⟨t, (mem_enqueue_seen _ _ _).2 (.inl ht), u, hu, hhit⟩

/-- **The export search decides reachability from an exported symbol** that is one or more member
accesses away. -/
theorem findExported_eq_true_iff {start : SymbolId} :
    g.findExported target start = true ↔
      ∃ s, Relation.TransGen g.Edge start s ∧ (g.get s).exported = true ∧
        ∃ w, g.Reaches s w ∧ (g.get w).wraps target = true := by
  rw [findExported, explore_eq_true_iff (Frontier.start start)]
  simp only [Std.HashSet.mem_insert, beq_iff_eq, Std.HashSet.not_mem_empty, or_false,
    transGen_edge_iff, edge_iff, Hit, findNode_eq_true_iff]
  constructor
  · rintro ⟨_, rfl, u, hu, s, hs, hexp, hw⟩
    exact ⟨s, ⟨u, hu, hs⟩, hexp, hw⟩
  · rintro ⟨s, ⟨u, hu, hs⟩, hexp, hw⟩
    exact ⟨start, rfl, u, hu, s, hs, hexp, hw⟩

/-! ### The order of properties -/

/-- Two graphs whose symbols have the same properties, listed in any order. -/
structure SameUpToOrder (g g' : SymbolGraph) : Prop where
  kind : ∀ id, (g'.get id).kind = (g.get id).kind
  value : ∀ id, (g'.get id).value = (g.get id).value
  exported : ∀ id, (g'.get id).exported = (g.get id).exported
  prop? : ∀ id key, g'.prop? id key = g.prop? id key

namespace SameUpToOrder

variable {g' : SymbolGraph}

theorem edge_eq (h : g.SameUpToOrder g') : g'.Edge = g.Edge := by
  funext u v
  simp only [Edge, h.kind, h.prop?]

theorem reaches_iff (h : g.SameUpToOrder g') {u v : SymbolId} :
    g'.Reaches u v ↔ g.Reaches u v := by
  constructor
  · intro hr
    induction hr with
    | refl => exact .refl _
    | step he _ ih => exact .step (h.edge_eq ▸ he) ih
  · intro hr
    induction hr with
    | refl => exact .refl _
    | step he _ ih => exact .step (h.edge_eq ▸ he) ih

theorem wraps_eq (h : g.SameUpToOrder g') (id : SymbolId) :
    (g'.get id).wraps target = (g.get id).wraps target := by
  rw [Symbol.wraps, Symbol.wraps, h.kind, h.value]

theorem findNode_eq (h : g.SameUpToOrder g') (start : SymbolId) :
    g'.findNode target start = g.findNode target start := by
  rw [Bool.eq_iff_iff, findNode_eq_true_iff, findNode_eq_true_iff]
  simp only [h.reaches_iff, h.wraps_eq]

theorem findExported_eq (h : g.SameUpToOrder g') (start : SymbolId) :
    g'.findExported target start = g.findExported target start := by
  rw [Bool.eq_iff_iff, findExported_eq_true_iff, findExported_eq_true_iff]
  simp only [h.edge_eq, h.exported, h.reaches_iff, h.wraps_eq]

theorem moduleExports?_eq (h : g.SameUpToOrder g') : g'.moduleExports? = g.moduleExports? := by
  simp only [moduleExports?, h.prop?]

theorem isExported_eq (h : g.SameUpToOrder g') (options : AnalysisOptions) :
    g'.isExported target options = g.isExported target options := by
  have hfind : g'.findNode target = g.findNode target := funext h.findNode_eq
  rw [isExported, isExported, h.moduleExports?_eq, hfind, h.findExported_eq]

end SameUpToOrder

/-! ### The export surface -/

/-- **The export surface is reachability.**  A node is on it exactly when an object made for it is
reachable from `module.exports`, or from an exported symbol that is one or more member accesses
away from the global scope, through a channel that is on.  In particular the order in which the
properties of a symbol are listed does not matter. -/
theorem isExported_iff_reachable (g : SymbolGraph) (target : NodeId) (options : AnalysisOptions) :
    (g.isExported target options = true ↔
      (options.commonJs = true ∧ ∃ e, g.moduleExports? = some e ∧
        ∃ w, g.Reaches e w ∧ (g.get w).kind = .object ∧ (g.get w).value = some target) ∨
      (options.esm = true ∧ ∃ s, Relation.TransGen g.Edge root s ∧ (g.get s).exported = true ∧
        ∃ w, g.Reaches s w ∧ (g.get w).kind = .object ∧ (g.get w).value = some target)) ∧
    ∀ g' : SymbolGraph, g.SameUpToOrder g' →
      g'.isExported target options = g.isExported target options := by
  refine ⟨?_, fun g' h => h.isExported_eq options⟩
  rw [isExported, Bool.or_eq_true, Bool.and_eq_true, Bool.and_eq_true, Option.any_eq_true,
    findExported_eq_true_iff]
  simp only [findNode_eq_true_iff, wraps_iff]

/-- A global scope that holds itself, beside an exported object for node 7. -/
def loopWithExport (first second : String × SymbolId) : SymbolGraph :=
  ((SymbolGraph.mk #[.placeholder, { Symbol.object (some 7) with exported := true }]).setProp
    root first.1 first.2).setProp root second.1 second.2

theorem isExported_loopWithExport :
    (loopWithExport ("window", 0) ("run", 1)).isExported 7 {} = true ∧
      (loopWithExport ("run", 1) ("window", 0)).isExported 7 {} = true := by
  have hrun : (loopWithExport ("window", 0) ("run", 1)).Edge root 1 :=
    ⟨by decide, "run", by decide⟩
  have hsame : (loopWithExport ("window", 0) ("run", 1)).SameUpToOrder
      (loopWithExport ("run", 1) ("window", 0)) := by
    refine ⟨?_, ?_, ?_, ?_⟩
    · intro id; simp [loopWithExport]
    · intro id; simp [loopWithExport]
    · intro id; simp [loopWithExport]
    · intro id key
      simp only [loopWithExport, prop?_setProp, size_setProp]
      grind
  have hfirst : (loopWithExport ("window", 0) ("run", 1)).isExported 7 {} = true := by
    refine (isExported_iff_reachable _ 7 {}).1.2 (.inr ⟨rfl, 1, .single hrun, by decide, ?_⟩)
    exact ⟨1, .refl 1, by decide, by decide⟩
  exact ⟨hfirst, ((isExported_iff_reachable _ 7 {}).2 _ hsame).trans hfirst⟩

end ExportSurface.SymbolGraph

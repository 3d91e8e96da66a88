/-
Searching the symbol graph for the symbol of a syntax node.

The graph is cyclic: `window` leads back to the global scope, and objects may hold each other.  The
path search walks one path at a time and holds the symbols of that path; a symbol that siblings
share is tried from each of them.  The export search expands every symbol at most once and starts
a path search at each exported one.

Main definitions:

* `SymbolGraph.Edge`, `SymbolGraph.Reaches` — member access as a relation, and its closure;
* `SymbolGraph.PathState` — the symbols of the current path, with the members still to be tried;
* `SymbolGraph.findNode` — is a syntax node wrapped by a symbol that a given symbol reaches?
* `SymbolGraph.findExported` — is it wrapped by a symbol that an exported symbol reaches?

The path search ends because a path never holds a symbol twice: `SymbolGraph.pathCost` bounds the
work that is left on a path, and each step lowers it.  The export search ends because a symbol is
seen once: `SymbolGraph.unseenBelow` counts the symbols that are still to be seen.
-/

import ExportSurface.Symbol.Graph
import Std.Data.HashSet

set_option autoImplicit false

namespace ExportSurface.SymbolGraph

/-! ### Reachability -/

/-- One member access leads from `u` to `v`: the first is no literal, and one of its properties is
the second. -/
def Edge (g : SymbolGraph) (u v : SymbolId) : Prop :=
  (g.get u).kind ≠ .literal ∧ ∃ key, g.prop? u key = some v

/-- Zero or more member accesses lead from one symbol to another. -/
inductive Reaches (g : SymbolGraph) : SymbolId → SymbolId → Prop where
  | refl (u : SymbolId) : Reaches g u u
  | step {u v w : SymbolId} : g.Edge u v → Reaches g v w → Reaches g u w

/-! ### The work left on a path -/

/-- A symbol on the current path, with the members that are still to be tried from it. -/
structure Frame where
  symbol : SymbolId
  pending : List SymbolId

/-- The symbols of a path, the innermost first. -/
def onPath (frames : List Frame) : List SymbolId := frames.map Frame.symbol

/-- The largest number of members among the first `n` symbols. -/
def degreeBelow (g : SymbolGraph) : Nat → Nat
  | 0 => 0
  | n + 1 => max (g.degreeBelow n) (g.members n).length

theorem length_members_le {g : SymbolGraph} {s n : Nat} (h : s < n) :
    (g.members s).length ≤ g.degreeBelow n := by
  induction n with
  | zero => omega
  | succ n ih =>
      simp only [degreeBelow]
      by_cases hs : s = n
      · subst hs
        omega
      · have := ih (by omega)
        omega

/-- A bound on the steps that trying one member takes while `k` symbols are off the path. -/
def visitCost (degree : Nat) : Nat → Nat
  | 0 => 1
  | k + 1 => 2 + degree * visitCost degree k

theorem visitCost_pos (degree k : Nat) : 0 < visitCost degree k := by
  cases k <;> simp only [visitCost] <;> omega

/-- A bound on the steps that are left on a path. -/
def pathCost (g : SymbolGraph) : List Frame → Nat
  | [] => 0
  | f :: rest =>
      1 + f.pending.length * visitCost (g.degreeBelow g.size) (g.size - (rest.length + 1)) +
        g.pathCost rest

/-- Distinct numbers below `n` are at most `n` many. -/
theorem length_le_of_nodup_of_lt {l : List Nat} {n : Nat} (hn : l.Nodup) (hl : ∀ x ∈ l, x < n) :
    l.length ≤ n := by
  induction n generalizing l with
  | zero =>
      cases l with
      | nil => simp
      | cons a l => exact absurd (hl a (by simp)) (by omega)
  | succ n ih =>
      have h₁ : (l.erase n).length ≤ n := by
        refine ih (hn.erase n) ?_
        intro x hx
        have hx' := (List.Nodup.mem_erase_iff hn).1 hx
        have := hl x hx'.2
        omega
      have h₂ : l.length ≤ (l.erase n).length + 1 := by
        by_cases hmem : n ∈ l
        · rw [List.length_erase_of_mem hmem]
          omega
        · rw [List.erase_of_not_mem hmem]
          omega
      omega

/-! ### The path search -/

/-- What holds of the frames and of the marks between two steps of the path search. -/
structure PathState (g : SymbolGraph) (frames : List Frame) (marked : Std.HashSet SymbolId) :
    Prop where
  /-- The marked symbols are those of the path. -/
  mem_marked : ∀ s, s ∈ marked ↔ s ∈ onPath frames
  /-- No symbol is on the path twice. -/
  nodup : (onPath frames).Nodup
  /-- The path stays in the graph. -/
  inRange : ∀ s ∈ onPath frames, s < g.size

namespace PathState

variable {g : SymbolGraph} {marked : Std.HashSet SymbolId} {f : Frame} {rest : List Frame}

theorem start {s : SymbolId} {pending : List SymbolId} (h : s < g.size) :
    PathState g [⟨s, pending⟩] (.insert ∅ s) where
  mem_marked := by
    intro t
    simp only [Std.HashSet.mem_insert, Std.HashSet.not_mem_empty, onPath, List.map_cons,
      List.map_nil, List.mem_singleton, beq_iff_eq, or_false]
    exact eq_comm
  nodup := by simp [onPath]
  inRange := by simpa [onPath] using h

theorem pop (h : PathState g (f :: rest) marked) : PathState g rest (marked.erase f.symbol) where
  mem_marked := by
    intro s
    have hn := h.nodup
    simp only [onPath, List.map_cons, List.nodup_cons] at hn
    rw [Std.HashSet.mem_erase, h.mem_marked]
    simp only [onPath, List.map_cons, List.mem_cons, beq_eq_false_iff_ne, ne_eq]
    constructor
    · rintro ⟨h₁, h₂ | h₂⟩
      · exact absurd h₂.symm h₁
      · exact h₂
    · intro hs
      refine ⟨?_, .inr hs⟩
      intro he
      exact hn.1 (he ▸ hs)
  nodup := by
    have hn := h.nodup
    simp only [onPath, List.map_cons, List.nodup_cons] at hn
    exact hn.2
  inRange := fun s hs => h.inRange s <| by
    simp only [onPath, List.map_cons, List.mem_cons]
    exact .inr hs

theorem skip {s : SymbolId} {pending pending' : List SymbolId}
    (h : PathState g (⟨s, pending⟩ :: rest) marked) :
    PathState g (⟨s, pending'⟩ :: rest) marked where
  mem_marked := h.mem_marked
  nodup := h.nodup
  inRange := h.inRange

theorem push {c : SymbolId} {pending : List SymbolId} (h : PathState g rest marked)
    (hc : c < g.size) (hm : c ∉ marked) : PathState g (⟨c, pending⟩ :: rest) (marked.insert c) where
  mem_marked := by
    intro s
    rw [Std.HashSet.mem_insert, h.mem_marked]
    simp only [onPath, List.map_cons, List.mem_cons, beq_iff_eq]
    exact or_congr eq_comm Iff.rfl
  nodup := by
    simp only [onPath, List.map_cons, List.nodup_cons]
    exact ⟨fun hmem => hm ((h.mem_marked c).2 hmem), h.nodup⟩
  inRange := by
    intro s hs
    simp only [onPath, List.map_cons, List.mem_cons] at hs
    rcases hs with rfl | hs
    · exact hc
    · exact h.inRange s hs

/-- Entering a symbol that is off the path lowers the cost. -/
theorem pathCost_push_lt {s c : SymbolId} {cs : List SymbolId}
    (h : PathState g (⟨s, c :: cs⟩ :: rest) marked) (hc : c < g.size) (hm : c ∉ marked) :
    g.pathCost (⟨c, g.members c⟩ :: ⟨s, cs⟩ :: rest) < g.pathCost (⟨s, c :: cs⟩ :: rest) := by
  have hlen : rest.length + 2 ≤ g.size := by
    have h' : PathState g (⟨c, []⟩ :: ⟨s, c :: cs⟩ :: rest) (marked.insert c) := h.push hc hm
    have := length_le_of_nodup_of_lt h'.nodup h'.inRange
    simp only [onPath, List.map_cons, List.length_cons, List.length_map] at this
    exact this
  obtain ⟨k, hk⟩ : ∃ k, g.size = rest.length + 2 + k := ⟨_, (Nat.add_sub_cancel' hlen).symm⟩
  have h₁ : g.size - (rest.length + 1) = k + 1 := by omega
  have h₂ : g.size - (rest.length + 1 + 1) = k := by omega
  have hd :=
    Nat.mul_le_mul_right (visitCost (g.degreeBelow g.size) k) (length_members_le (g := g) hc)
  simp only [pathCost, List.length_cons, h₁, h₂, visitCost, Nat.add_mul, Nat.one_mul]
  omega

end PathState

/-- Walk on from a path: leave the innermost symbol when it has no members left, pass over a
member that is on the path already, and enter any other member. -/
def walk (g : SymbolGraph) (target : NodeId) :
    (frames : List Frame) → (marked : Std.HashSet SymbolId) → PathState g frames marked → Bool
  | [], _, _ => false
  | ⟨s, []⟩ :: rest, marked, h => g.walk target rest (marked.erase s) h.pop
  | ⟨s, c :: cs⟩ :: rest, marked, h =>
      if hc : c < g.size ∧ c ∉ marked then
        if (g.get c).wraps target then true
        else g.walk target (⟨c, g.members c⟩ :: ⟨s, cs⟩ :: rest) (marked.insert c)
          (h.skip.push hc.1 hc.2)
      else g.walk target (⟨s, cs⟩ :: rest) marked h.skip
termination_by frames => g.pathCost frames
decreasing_by
  · simp only [pathCost]
    omega
  · exact h.pathCost_push_lt hc.1 hc.2
  · have := visitCost_pos (g.degreeBelow g.size) (g.size - (rest.length + 1))
    simp only [pathCost, List.length_cons, Nat.add_mul]
    omega

/-- Is the syntax node wrapped by a symbol that `start` reaches? -/
def findNode (g : SymbolGraph) (target : NodeId) (start : SymbolId) : Bool :=
  if h : start < g.size then
    (g.get start).wraps target ||
      g.walk target [⟨start, g.members start⟩] (.insert ∅ start) (.start h)
  else false

/-! ### The export search -/

/-- How many of the first `n` symbols were not seen yet. -/
def unseenBelow (seen : Std.HashSet SymbolId) : Nat → Nat
  | 0 => 0
  | n + 1 => unseenBelow seen n + if n ∈ seen then 0 else 1

/-- Seeing a new symbol of the graph leaves one symbol less to be seen. -/
theorem unseenBelow_insert {seen : Std.HashSet SymbolId} {c : Nat} (hc : c ∉ seen) (n : Nat) :
    unseenBelow (seen.insert c) n + (if c < n then 1 else 0) = unseenBelow seen n := by
  induction n with
  | zero => simp [unseenBelow]
  | succ n ih =>
      simp only [unseenBelow, Std.HashSet.mem_insert, beq_iff_eq]
      by_cases hn : c = n
      · subst hn
        simp only [Nat.lt_irrefl, if_false, Nat.add_zero] at ih
        simp [hc, ih]
      · have hlt : c < n + 1 ↔ c < n := by omega
        simp only [hn, false_or, hlt, ← ih]
        omega

/-- Add the symbols of the graph that were not seen before to the seen and to the waiting ones. -/
def enqueue (g : SymbolGraph) :
    List SymbolId → Std.HashSet SymbolId → List SymbolId → Std.HashSet SymbolId × List SymbolId
  | [], seen, waiting => (seen, waiting)
  | c :: children, seen, waiting =>
      if c < g.size ∧ c ∉ seen then g.enqueue children (seen.insert c) (c :: waiting)
      else g.enqueue children seen waiting

/-- Every symbol is seen, and waits, at most once. -/
theorem unseenBelow_enqueue (g : SymbolGraph) (children : List SymbolId)
    (seen : Std.HashSet SymbolId) (waiting : List SymbolId) :
    unseenBelow (g.enqueue children seen waiting).1 g.size +
      (g.enqueue children seen waiting).2.length = unseenBelow seen g.size + waiting.length := by
  induction children generalizing seen waiting with
  | nil => rfl
  | cons c children ih =>
      by_cases h : c < g.size ∧ c ∉ seen
      · have hc := unseenBelow_insert h.2 g.size
        simp only [h.1, if_true] at hc
        rw [enqueue, if_pos h, ih, List.length_cons]
        omega
      · rw [enqueue, if_neg h, ih]

/-- Expand the waiting symbols one after the other, until one of them has an exported member that
reaches the target. -/
def explore (g : SymbolGraph) (target : NodeId) :
    (seen : Std.HashSet SymbolId) → (waiting : List SymbolId) → Bool
  | _, [] => false
  | seen, s :: waiting =>
      if (g.members s).any fun c => (g.get c).exported && g.findNode target c then true
      else
        g.explore target (g.enqueue (g.members s) seen waiting).1
          (g.enqueue (g.members s) seen waiting).2
termination_by seen waiting => unseenBelow seen g.size + waiting.length
decreasing_by
  rw [unseenBelow_enqueue, List.length_cons]
  omega

/-- Is the syntax node wrapped by a symbol that some exported symbol below `start` reaches? -/
def findExported (g : SymbolGraph) (target : NodeId) (start : SymbolId) : Bool :=
  g.explore target (.insert ∅ start) [start]

end ExportSurface.SymbolGraph

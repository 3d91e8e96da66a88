/-
The path search as a loop, beside the usual depth-first search.

`ExportSurface/Symbol/Search.lean` writes the path search as a recursion.  Here it is taken apart
into the turns of a loop over an explicit stack, in which nothing bounds the symbols that are
entered, and the members of a symbol come in any order.  On a graph whose properties stay in it the
loop ends: a turn lowers the work that is left on the path, although a symbol is unmarked when it is
left and may be entered again from a sibling.

The usual search marks a symbol once and for all.  What it has marked is closed: a member of a
marked symbol is marked or waits on the stack.  The two searches have nothing in common but the
relation that they decide, so they agree whatever the order of members in either.

Main definitions:

* `SymbolGraph.Enumerates` — the members of each symbol, in some order;
* `SymbolGraph.SearchState`, `SymbolGraph.SearchState.turn` — the loop and one turn of it;
* `SymbolGraph.depthFirst` — depth-first search with one set of marks for the whole walk.

Main results:

* `SymbolGraph.Underway.turn` — **a turn answers, or goes on with less to do and the same hopes**;
* `SymbolGraph.Underway.ends` — **the loop ends**, within the work that is left;
* `SymbolGraph.depthFirst_eq_true_iff` — **the usual search decides reachability**;
* `SymbolGraph.findNode_decides_reachability` — the path search ends, decides reachability, and
  agrees with the usual search.
-/

import ExportSurface.Proofs.Reachability
import Mathlib.Logic.Function.Iterate

set_option autoImplicit false

namespace ExportSurface.SymbolGraph

variable {g : SymbolGraph} {target : NodeId} {children : SymbolId → List SymbolId}

/-- The members of every symbol, in an order of their own. -/
def Enumerates (g : SymbolGraph) (children : SymbolId → List SymbolId) : Prop :=
  ∀ s, (children s).Perm (g.members s)

theorem Enumerates.mem_iff (h : g.Enumerates children) {s c : SymbolId} :
    c ∈ children s ↔ g.Edge s c :=
  (h s).mem_iff.trans edge_iff.symm

theorem InRange.lt_of_enumerates (hg : g.InRange) (h : g.Enumerates children) {s c : SymbolId}
    (hc : c ∈ children s) : c < g.size := by
  obtain ⟨-, key, hkey⟩ := h.mem_iff.1 hc
  exact hg.lt_size hkey

/-! ### The loop -/

/-- The path search between two turns of its loop. -/
inductive SearchState where
  /-- A path with the members still to be tried, and the marked symbols. -/
  | walking (frames : List Frame) (marked : Std.HashSet SymbolId)
  | ended (answer : Bool)

namespace SearchState

/-- The state before the first turn. -/
def start (g : SymbolGraph) (target : NodeId) (children : SymbolId → List SymbolId)
    (s : SymbolId) : SearchState :=
  if (g.get s).wraps target then .ended true else .walking [⟨s, children s⟩] (.insert ∅ s)

/-- One turn: the next member of the innermost symbol is passed over if it is marked, and else
entered; a symbol without further members is left and unmarked. -/
def turn (g : SymbolGraph) (target : NodeId) (children : SymbolId → List SymbolId) :
    SearchState → SearchState
  | .ended answer => .ended answer
  | .walking [] _ => .ended false
  | .walking (⟨s, []⟩ :: rest) marked => .walking rest (marked.erase s)
  | .walking (⟨s, c :: cs⟩ :: rest) marked =>
      if c ∈ marked then .walking (⟨s, cs⟩ :: rest) marked
      else if (g.get c).wraps target then .ended true
      else .walking (⟨c, children c⟩ :: ⟨s, cs⟩ :: rest) (marked.insert c)

/-- An answer is final. -/
theorem iterate_turn_ended (answer : Bool) (n : Nat) :
    (turn g target children)^[n] (.ended answer) = .ended answer := by
  induction n with
  | zero => rfl
  | succ n ih => rw [Function.iterate_succ_apply', ih, turn]

end SearchState

/-- What holds between two turns: the marks are those of the path, and the symbols of the path and
the members still to be tried are in the graph. -/
structure Underway (g : SymbolGraph) (frames : List Frame) (marked : Std.HashSet SymbolId) : Prop
    extends PathState g frames marked where
  pending_lt : ∀ f ∈ frames, ∀ c ∈ f.pending, c < g.size

namespace Underway

variable {frames rest : List Frame} {marked : Std.HashSet SymbolId} {s c : SymbolId}
  {cs : List SymbolId}

theorem start (hg : g.InRange) (hch : g.Enumerates children) (hs : s < g.size) :
    Underway g [⟨s, children s⟩] (.insert ∅ s) where
  toPathState := .start hs
  pending_lt := by
    intro f hf c hc
    rw [List.mem_singleton.1 hf] at hc
    exact hg.lt_of_enumerates hch hc

theorem leave (h : Underway g (⟨s, []⟩ :: rest) marked) : Underway g rest (marked.erase s) where
  toPathState := h.pop
  pending_lt := fun f hf => h.pending_lt f (List.mem_cons_of_mem _ hf)

theorem pass (h : Underway g (⟨s, c :: cs⟩ :: rest) marked) :
    Underway g (⟨s, cs⟩ :: rest) marked where
  toPathState := h.skip
  pending_lt := by
    intro f hf d hd
    rcases List.mem_cons.1 hf with rfl | hf
    · exact h.pending_lt _ (List.mem_cons_self ..) d (List.mem_cons_of_mem c hd)
    · exact h.pending_lt f (List.mem_cons_of_mem _ hf) d hd

theorem next_lt (h : Underway g (⟨s, c :: cs⟩ :: rest) marked) : c < g.size :=
  h.pending_lt _ (List.mem_cons_self ..) c (List.mem_cons_self ..)

theorem enter (h : Underway g (⟨s, c :: cs⟩ :: rest) marked) (hg : g.InRange)
    (hch : g.Enumerates children) (hc : c ∉ marked) :
    Underway g (⟨c, children c⟩ :: ⟨s, cs⟩ :: rest) (marked.insert c) where
  toPathState := h.pass.push h.next_lt hc
  pending_lt := by
    intro f hf d hd
    rcases List.mem_cons.1 hf with rfl | hf
    · exact hg.lt_of_enumerates hch hd
    · exact h.pass.pending_lt f hf d hd

/-- The order of members does not change how much work entering a symbol takes off. -/
theorem pathCost_enter_lt (h : Underway g (⟨s, c :: cs⟩ :: rest) marked)
    (hch : g.Enumerates children) (hc : c ∉ marked) :
    g.pathCost (⟨c, children c⟩ :: ⟨s, cs⟩ :: rest) < g.pathCost (⟨s, c :: cs⟩ :: rest) := by
  have hlt := h.pathCost_push_lt h.next_lt hc
  simp only [pathCost, (hch c).length_eq] at hlt ⊢
  exact hlt

theorem pathCost_pass_lt :
    g.pathCost (⟨s, cs⟩ :: rest) < g.pathCost (⟨s, c :: cs⟩ :: rest) := by
  have := visitCost_pos (g.degreeBelow g.size) (g.size - (rest.length + 1))
  simp only [pathCost, List.length_cons, Nat.add_mul]
  omega

variable (target) in
/-- **A turn answers, or goes on with less to do and the same hopes.** -/
theorem turn (h : Underway g frames marked) (hg : g.InRange) (hch : g.Enumerates children) :
    (∃ answer, SearchState.turn g target children (.walking frames marked) = .ended answer ∧
      (answer = true ↔ g.Promising target frames)) ∨
    ∃ frames' marked', SearchState.turn g target children (.walking frames marked) =
      .walking frames' marked' ∧ Underway g frames' marked' ∧
      (g.Promising target frames' ↔ g.Promising target frames) ∧
      g.pathCost frames' < g.pathCost frames := by
  match frames with
  | [] => exact .inl ⟨false, rfl, by simp [Promising]⟩
  | ⟨s, []⟩ :: rest =>
      refine .inr ⟨rest, marked.erase s, rfl, h.leave, promising_leave.symm, ?_⟩
      simp only [pathCost]
      omega
  | ⟨s, c :: cs⟩ :: rest =>
      have hoff : c ∉ marked → c ∉ onPath (⟨s, c :: cs⟩ :: rest) :=
        fun hc hm => hc ((h.mem_marked c).2 hm)
      by_cases hc : c ∈ marked
      · -- whatever lies behind `c` is tried from where `c` stands on the path
        have hnone : ¬ g.Leads target (onPath (⟨s, c :: cs⟩ :: rest)) c := by
          rintro ⟨w, -, hreach⟩
          exact hreach.start_not_mem ((h.mem_marked c).1 hc)
        refine .inr ⟨⟨s, cs⟩ :: rest, marked, if_pos hc, h.pass, ?_, pathCost_pass_lt⟩
        rw [promising_try, or_iff_right hnone]
      · by_cases hw : (g.get c).wraps target = true
        · refine .inl ⟨true, by rw [SearchState.turn, if_neg hc, if_pos hw], iff_of_true rfl ?_⟩
          exact promising_try.2 (.inl ⟨c, hw, .refl (hoff hc)⟩)
        · refine .inr ⟨⟨c, children c⟩ :: ⟨s, cs⟩ :: rest, marked.insert c,
            by rw [SearchState.turn, if_neg hc, if_neg hw], h.enter hg hch hc, ?_,
            h.pathCost_enter_lt hch hc⟩
          rw [promising_try, leads_iff_of_not_wraps (hoff hc) (Bool.eq_false_iff.2 hw)]
          simp only [Promising, hch.mem_iff, edge_iff]
          rfl

variable (target) in
/-- **The loop ends**, and answers whether some member that is still to be tried leads to the
target. -/
theorem ends (h : Underway g frames marked) (hg : g.InRange) (hch : g.Enumerates children) :
    ∃ n ≤ g.pathCost frames + 1, ∃ answer,
      (SearchState.turn g target children)^[n] (.walking frames marked) = .ended answer ∧
      (answer = true ↔ g.Promising target frames) := by
  induction hcost : g.pathCost frames using Nat.strongRecOn generalizing frames marked with
  | _ cost ih =>
      subst hcost
      rcases h.turn target hg hch with
        ⟨answer, hturn, hiff⟩ | ⟨frames', marked', hturn, h', hsame, hlt⟩
      · exact ⟨1, Nat.le_add_left .., answer, hturn, hiff⟩
      · obtain ⟨n, hn, answer, hend, hiff⟩ := ih _ hlt h' rfl
        refine ⟨n + 1, by omega, answer, ?_, hiff.trans hsame⟩
        rw [Function.iterate_succ_apply, hturn, hend]

end Underway

variable (target) in
/-- The loop ends with the answer of the path search, whatever the order of members. -/
theorem exists_iterate_turn_eq (hg : g.InRange) (hch : g.Enumerates children) {s : SymbolId}
    (hs : s < g.size) :
    ∃ n ≤ g.pathCost [⟨s, children s⟩] + 1,
      (SearchState.turn g target children)^[n] (.start g target children s) =
        .ended (g.findNode target s) := by
  cases hw : (g.get s).wraps target with
  | true =>
      refine ⟨0, Nat.zero_le _, ?_⟩
      have hfind : g.findNode target s = true := findNode_eq_true_iff.2 ⟨s, .refl s, hw⟩
      rw [hfind, SearchState.start, if_pos hw]
      rfl
  | false =>
      obtain ⟨n, hn, answer, hend, hiff⟩ := (Underway.start hg hch hs).ends target hg hch
      have hanswer : answer = g.findNode target s := by
        rw [Bool.eq_iff_iff, hiff, findNode_eq_true_iff, ← leads_nil_iff,
          leads_iff_of_not_wraps List.not_mem_nil hw]
        simp [Promising, onPath, hch.mem_iff, edge_iff]
      refine ⟨n, hn, ?_⟩
      rw [SearchState.start, if_neg (by simp [hw]), hend, hanswer]

/-! ### The usual depth-first search -/

/-- Depth-first search from the symbols of a stack; a symbol that was seen is never entered
again. -/
def depthFirst (g : SymbolGraph) (target : NodeId) (children : SymbolId → List SymbolId)
    (seen : Std.HashSet SymbolId) : (stack : List SymbolId) → Bool
  | [] => false
  | s :: stack =>
      if s < g.size ∧ s ∉ seen then
        if (g.get s).wraps target then true
        else g.depthFirst target children (seen.insert s) (children s ++ stack)
      else g.depthFirst target children seen stack
termination_by stack => (unseenBelow seen g.size, stack.length)
decreasing_by
  · rename_i h _
    have hseen := unseenBelow_insert h.2 g.size
    rw [if_pos h.1] at hseen
    exact Prod.Lex.left _ _ (by omega)
  · exact Prod.Lex.right _ (Nat.lt_succ_self _)

/-- What holds of the seen symbols and of the stack. -/
structure Swept (g : SymbolGraph) (target : NodeId) (seen : Std.HashSet SymbolId)
    (stack : List SymbolId) : Prop where
  not_wraps : ∀ s ∈ seen, (g.get s).wraps target = false
  /-- A member of a seen symbol is seen, or waits. -/
  closed : ∀ s ∈ seen, ∀ c, g.Edge s c → c ∈ seen ∨ c ∈ stack

namespace Swept

variable {seen : Std.HashSet SymbolId} {stack : List SymbolId} {s : SymbolId}

theorem start (s : SymbolId) : g.Swept target ∅ [s] where
  not_wraps := by
    intro t ht
    exact absurd ht Std.HashSet.not_mem_empty
  closed := by
    intro t ht
    exact absurd ht Std.HashSet.not_mem_empty

theorem skip (h : g.Swept target seen (s :: stack)) (hs : s ∈ seen) :
    g.Swept target seen stack where
  not_wraps := h.not_wraps
  closed := by
    intro t ht c hc
    rcases h.closed t ht c hc with hseen | hstack
    · exact .inl hseen
    · rcases List.mem_cons.1 hstack with rfl | hstack
      · exact .inl hs
      · exact .inr hstack

theorem enter (h : g.Swept target seen (s :: stack)) (hch : g.Enumerates children)
    (hw : (g.get s).wraps target = false) :
    g.Swept target (seen.insert s) (children s ++ stack) where
  not_wraps := by
    intro t ht
    rcases Std.HashSet.mem_insert.1 ht with heq | ht
    · rw [← eq_of_beq heq, hw]
    · exact h.not_wraps t ht
  closed := by
    intro t ht c hc
    rw [Std.HashSet.mem_insert, beq_iff_eq] at ht ⊢
    rcases ht with rfl | ht
    · exact .inr (List.mem_append_left _ (hch.mem_iff.2 hc))
    · rcases h.closed t ht c hc with hseen | hstack
      · exact .inl (.inr hseen)
      · rcases List.mem_cons.1 hstack with rfl | hstack
        · exact .inl (.inl rfl)
        · exact .inr (List.mem_append_right _ hstack)

/-- A way from a seen symbol to the target passes through the stack. -/
theorem exists_mem_stack {w : SymbolId} (h : g.Swept target seen stack) (hs : s ∈ seen)
    (hreach : g.Reaches s w) (hw : (g.get w).wraps target = true) : ∃ t ∈ stack, g.Reaches t w := by
  induction hreach with
  | refl s =>
      rw [h.not_wraps s hs] at hw
      cases hw
  | @step s c w he hrest ih =>
      rcases h.closed s hs c he with hseen | hstack
      · exact ih hseen hw
      · exact ⟨c, hstack, hrest⟩

end Swept

/-- **The usual search decides reachability** from its stack. -/
theorem depthFirst_eq_true_iff (hg : g.InRange) (hch : g.Enumerates children)
    {seen : Std.HashSet SymbolId} {stack : List SymbolId} (h : g.Swept target seen stack)
    (hstack : ∀ s ∈ stack, s < g.size) :
    g.depthFirst target children seen stack = true ↔
      ∃ s ∈ stack, ∃ w, g.Reaches s w ∧ (g.get w).wraps target = true := by
  induction seen, stack using depthFirst.induct g target children with
  | case1 seen => simp [depthFirst]
  | case2 seen s stack hs hw =>
      rw [depthFirst, if_pos hs, if_pos hw]
      exact iff_of_true rfl ⟨s, List.mem_cons_self .., s, .refl s, hw⟩
  | case3 seen s stack hs hw ih =>
      have hw' : (g.get s).wraps target = false := Bool.eq_false_iff.2 hw
      have hlt : ∀ t ∈ children s ++ stack, t < g.size := by
        intro t ht
        rcases List.mem_append.1 ht with ht | ht
        · exact hg.lt_of_enumerates hch ht
        · exact hstack t (List.mem_cons_of_mem s ht)
      rw [depthFirst, if_pos hs, if_neg hw, ih (h.enter hch hw') hlt]
      -- a way from `s` to the target goes on from a member of `s`
      constructor
      · rintro ⟨t, ht, w, hreach, hwraps⟩
        rcases List.mem_append.1 ht with ht | ht
        · exact ⟨s, List.mem_cons_self .., w, .step (hch.mem_iff.1 ht) hreach, hwraps⟩
        · exact ⟨t, List.mem_cons_of_mem s ht, w, hreach, hwraps⟩
      · rintro ⟨t, ht, w, hreach, hwraps⟩
        rcases List.mem_cons.1 ht with rfl | ht
        · have hseen : t ∈ seen.insert t := Std.HashSet.mem_insert_self
          obtain ⟨u, hu, hreach'⟩ := (h.enter hch hw').exists_mem_stack hseen hreach hwraps
          exact ⟨u, hu, w, hreach', hwraps⟩
        · exact ⟨t, List.mem_append_right _ ht, w, hreach, hwraps⟩
  | case4 seen s stack hs ih =>
      have hlt : s < g.size := hstack s (List.mem_cons_self ..)
      have hseen : s ∈ seen := Classical.not_not.1 fun hn => hs ⟨hlt, hn⟩
      have hrest := h.skip hseen
      rw [depthFirst, if_neg hs, ih hrest fun t ht => hstack t (List.mem_cons_of_mem s ht)]
      constructor
      · rintro ⟨t, ht, hfound⟩
        exact ⟨t, List.mem_cons_of_mem s ht, hfound⟩
      · rintro ⟨t, ht, w, hreach, hwraps⟩
        rcases List.mem_cons.1 ht with rfl | ht
        · obtain ⟨u, hu, hreach'⟩ := hrest.exists_mem_stack hseen hreach hwraps
          exact ⟨u, hu, w, hreach', hwraps⟩
        · exact ⟨t, ht, w, hreach, hwraps⟩

/-! ### Both searches -/

/-- **The path search decides reachability.**  On a graph whose properties stay in it, the loop of
the search ends from every symbol and in every order of members, and always with the same answer:
whether an object made for the target is reachable.  The search that never enters a symbol twice
gives this answer too, in every order of its own. -/
theorem findNode_decides_reachability (g : SymbolGraph) (hg : g.InRange) (target : NodeId)
    (start : SymbolId) (hstart : start < g.size) (children : SymbolId → List SymbolId)
    (hch : g.Enumerates children) :
    (∃ n ≤ g.pathCost [⟨start, children start⟩] + 1, ∀ m ≥ n,
      (SearchState.turn g target children)^[m] (.start g target children start) =
        .ended (g.findNode target start)) ∧
    (g.findNode target start = true ↔
      ∃ w, g.Reaches start w ∧ (g.get w).kind = .object ∧ (g.get w).value = some target) ∧
    ∀ children', g.Enumerates children' →
      g.depthFirst target children' ∅ [start] = g.findNode target start := by
  refine ⟨?_, by simp only [findNode_eq_true_iff, wraps_iff], ?_⟩
  · obtain ⟨n, hn, hend⟩ := exists_iterate_turn_eq target hg hch hstart
    refine ⟨n, hn, fun m hm => ?_⟩
    obtain ⟨k, rfl⟩ := Nat.exists_eq_add_of_le' hm
    rw [Function.iterate_add_apply, hend, SearchState.iterate_turn_ended]
  · intro children' hch'
    rw [Bool.eq_iff_iff, depthFirst_eq_true_iff hg hch' (.start start) (by simpa using hstart),
      findNode_eq_true_iff]
    simp

/-- The global scope holds itself and two objects, which share a third one; one of them leads back
to the scope. -/
def knot : SymbolGraph :=
  let scope := SymbolGraph.mk #[.placeholder, .object (some 5), .object (some 6), .object (some 7)]
  let scope := ((scope.setProp root "window" root).setProp root "a" 1).setProp root "b" 2
  ((scope.setProp 1 "shared" 3).setProp 2 "shared" 3).setProp 2 "back" root

theorem findNode_knot :
    knot.findNode 7 root = true ∧ knot.findNode 9 root = false ∧
      knot.depthFirst 9 knot.members ∅ [root] = false ∧
      ∃ n, (SearchState.turn knot 9 fun s => (knot.members s).reverse)^[n]
        (.start knot 9 (fun s => (knot.members s).reverse) root) = .ended false := by
  have hrange : knot.InRange := by
    rw [InRange]
    decide
  have hreverse : knot.Enumerates fun s => (knot.members s).reverse := fun s => List.reverse_perm _
  have hmembers : knot.Enumerates knot.members := fun s => .refl _
  obtain ⟨-, hseven, -⟩ :=
    findNode_decides_reachability knot hrange 7 root (by decide) _ hreverse
  obtain ⟨⟨n, -, hloop⟩, hnine, husual⟩ :=
    findNode_decides_reachability knot hrange 9 root (by decide) _ hreverse
  have hfirst : knot.Edge root 1 := ⟨by decide, "a", by decide⟩
  have hsecond : knot.Edge 1 3 := ⟨by decide, "shared", by decide⟩
  have hnone : ∀ w, (knot.get w).wraps 9 = false := by
    intro w
    rcases Nat.lt_or_ge w knot.size with hlt | hge
    · have hall : ∀ w < knot.size, (knot.get w).wraps 9 = false := by decide
      exact hall w hlt
    · exact not_wraps_of_size_le hge
  have habsent : knot.findNode 9 root = false := by
    refine Bool.eq_false_iff.2 fun hfound => ?_
    obtain ⟨w, -, hw⟩ := hnine.1 hfound
    rw [← wraps_iff, hnone w] at hw
    cases hw
  have hfound := hseven.2 ⟨3, .step hfirst (.step hsecond (.refl 3)), by decide, by decide⟩
  refine ⟨hfound, habsent, ?_, n, ?_⟩
  · rw [husual _ hmembers, habsent]
  · rw [hloop n (Nat.le_refl n), habsent]

end ExportSurface.SymbolGraph

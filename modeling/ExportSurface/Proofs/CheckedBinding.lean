/-
Binding a module with every access checked.

The binder looks nodes and symbols up by position, and a look-up past the end of an arena has a
default answer.  Here the programs of the binder are run in a monad in which such a look-up stops
the run, and in which the run keeps every state that it passes through.  That the checked run never
stops, and ends where the binder ends, is what it means for the binder to stay in bounds; the states
that were kept are the points of the run at which an invariant is to hold.

Main definitions:

* `Run`, `Checked` — a run with the states behind it, and computations that may stop;
* `Checked.node`, `Checked.symbol`, `Checked.alloc`, `Checked.setProp`, `Checked.markExported`,
  `Checked.report` — the accesses and the changes;
* `Checked.runProgram`, `Checked.perform` — running a program, and performing a task;
* `Checked.declare`, `Checked.assign`, `Checked.ofAst` — both passes, and a whole module;
* `Checked.Follows` — a checked computation does not stop, ends with the given outcome, and goes
  through states of the given kind.

Main result:

* `Invariant.follows` — **what an invariant allows to perform, and keeps in bounds, is not
  stopped**, and the invariant holds of every state on the way.
-/

import ExportSurface.Analysis
import ExportSurface.Proofs.SafeTasks

set_option autoImplicit false

namespace ExportSurface

open SymbolGraph (root)

/-- A run in progress: the state it is in, and the states it has left, the latest first. -/
structure Run where
  now : Bindings
  past : List Bindings := []

/-- All states of a run so far. -/
def Run.states (run : Run) : List Bindings := run.now :: run.past

/-- The run that has not begun: an empty global scope. -/
def Run.fresh : Run := { now := { graph := .empty } }

/-- A computation over a run, which stops when an access is out of bounds. -/
abbrev Checked := StateT Run Option

namespace Checked

/-! ### Accesses and changes -/

/-- Read a node of the tree. -/
def node (ast : Ast) (id : NodeId) : Checked Node := fun run =>
  if id < ast.size then some (ast.node id, run) else none

/-- Read a symbol of the graph. -/
def symbol (id : SymbolId) : Checked Symbol := fun run =>
  if id < run.now.graph.size then some (run.now.graph.get id, run) else none

/-- Go on to another state, keeping the one that is left. -/
def move (b : Bindings) : Checked Unit := fun run => some ((), ⟨b, run.states⟩)

def report (d : Diagnostic) : Checked Unit := do
  move ((← get).now.report d)

def alloc (s : Symbol) : Checked SymbolId := do
  let b := (← get).now
  move (b.alloc s).2
  return (b.alloc s).1

def setProp (id : SymbolId) (key : String) (target : SymbolId) : Checked Unit := do
  let _ ← symbol id
  move ((← get).now.setProp id key target)

def markExported (id : SymbolId) : Checked Unit := do
  let _ ← symbol id
  move ((← get).now.markExported id)

/-! ### Programs and tasks -/

/-- Answer a request, given how tasks are performed. -/
def answer (ast : Ast) (perform : Task → Checked (Option SymbolId)) :
    (q : Program.Request) → Checked q.Answer
  | .node id => node ast id
  | .symbol id => symbol id
  | .report d => report d
  | .alloc s => alloc s
  | .setProp id key target => setProp id key target
  | .markExported id => markExported id
  | .perform t => perform t

/-- Answer the requests of a program. -/
def runProgram (ast : Ast) (perform : Task → Checked (Option SymbolId)) {α : Type} :
    Program α → Checked α
  | .done a => pure a
  | .ask q next => do runProgram ast perform (next (← answer ast perform q))

/-- Perform a task and the tasks that it asks for, to a depth; past that, stop. -/
def perform (ast : Ast) : Nat → Task → Checked (Option SymbolId)
  | 0, _ => failure
  | depth + 1, t => runProgram ast (perform ast depth) (t.program { ast })

/-- Pass over a node in either pass. -/
def visit (ast : Ast) (t : Task) : Checked Unit := do
  let _ ← perform ast (t.rank + 1) t

def declare (ast : Ast) (id : NodeId) : Checked Unit := visit ast (.declare (id + 1) id)

def assign (ast : Ast) (id : NodeId) : Checked Unit := visit ast (.assign (id + 1) id)

/-! ### A whole run -/

/-- Seed `module` and `exports`. -/
def seedCommonJs : Checked Unit := do
  let module' ← alloc (.object none)
  let exports ← alloc (.object none)
  setProp module' "exports" exports
  setProp root "module" module'
  setProp root "exports" exports

/-- Seed the globals. -/
def seed (commonJs window : Bool) : Checked Unit := do
  bif commonJs then seedCommonJs else pure ()
  bif window then setProp root "window" root else pure ()

/-- Bind a module: seed the globals, declare, assign. -/
def ofAst (ast : Ast) (options : AnalysisOptions) : Checked Unit := do
  seed options.commonJs options.window
  declare ast ast.program
  assign ast ast.program

/-! ### Computations that are not stopped -/

/-- The computation does not stop, has the given outcome, and gets there through states that
satisfy `I`. -/
def Follows (I : Bindings → Prop) {α : Type} (m : Checked α) (run : Run)
    (out : α × Bindings) : Prop :=
  ∃ run', m run = some (out.1, run') ∧ run'.now = out.2 ∧
    ∀ b ∈ run'.states, b ∈ run.states ∨ I b

variable {ast : Ast} {I : Bindings → Prop} {run : Run} {α β : Type}

theorem bind_eq {run' : Run} {m : Checked α} {k : α → Checked β} {a : α}
    (hm : m run = some (a, run')) : (m >>= k) run = k a run' := by
  change (m run).bind _ = _
  rw [hm]
  rfl

theorem symbol_eq {id : SymbolId} (h : id < run.now.graph.size) :
    symbol id run = some (run.now.graph.get id, run) :=
  if_pos h

namespace Follows

theorem of_read {m : Checked α} {a : α} (hm : m run = some (a, run)) :
    Follows I m run (a, run.now) :=
  ⟨run, hm, rfl, fun _ hb => .inl hb⟩

/-- What comes after a computation goes on from where that one ends. -/
theorem bind {m : Checked α} {k : α → Checked β} {out : α × Bindings} {out' : β × Bindings}
    (hm : Follows I m run out) (hk : ∀ run', run'.now = out.2 → Follows I (k out.1) run' out') :
    Follows I (m >>= k) run out' := by
  obtain ⟨run', hrun, hnow, hstates⟩ := hm
  obtain ⟨run'', hrun', hnow', hstates'⟩ := hk run' hnow
  refine ⟨run'', ?_, hnow', ?_⟩
  · rw [bind_eq hrun, hrun']
  · intro b hb
    rcases hstates' b hb with hb | hb
    · exact hstates b hb
    · exact .inr hb

section changes

variable {b : Bindings}

/-- After a move there is one more state. -/
theorem states_move (run : Run) (h : I b) :
    ∀ c ∈ (Run.mk b run.states).states, c ∈ run.states ∨ I c := by
  intro c hc
  rcases List.mem_cons.1 hc with rfl | hc
  · exact .inr h
  · exact .inl hc

variable (hnow : run.now = b)
include hnow

theorem report {d : Diagnostic} (h : I (b.report d)) :
    Follows I (report d) run ((), b.report d) := by
  subst hnow
  exact ⟨⟨_, run.states⟩, rfl, rfl, states_move run h⟩

theorem alloc {s : Symbol} (h : I (b.alloc s).2) : Follows I (alloc s) run (b.alloc s) := by
  subst hnow
  exact ⟨⟨_, run.states⟩, rfl, rfl, states_move run h⟩

theorem setProp {id t : SymbolId} {key : String} (hid : id < b.graph.size)
    (h : I (b.setProp id key t)) : Follows I (setProp id key t) run ((), b.setProp id key t) := by
  subst hnow
  rw [Follows, Checked.setProp, bind_eq (symbol_eq hid)]
  exact ⟨⟨_, run.states⟩, rfl, rfl, states_move run h⟩

theorem markExported {id : SymbolId} (hid : id < b.graph.size) (h : I (b.markExported id)) :
    Follows I (markExported id) run ((), b.markExported id) := by
  subst hnow
  rw [Follows, Checked.markExported, bind_eq (symbol_eq hid)]
  exact ⟨⟨_, run.states⟩, rfl, rfl, states_move run h⟩

end changes

theorem mono {J : Bindings → Prop} (hIJ : ∀ b, I b → J b) {m : Checked α} {out : α × Bindings}
    (h : Follows I m run out) : Follows J m run out := by
  obtain ⟨run', hm, hnow, hstates⟩ := h
  exact ⟨run', hm, hnow, fun b hb => (hstates b hb).imp_right (hIJ b)⟩

/-- If all states have been of the given kind, they still are. -/
theorem forall_states {m : Checked α} {out : α × Bindings} (h : Follows I m run out)
    (hrun : ∀ b ∈ run.states, I b) :
    ∃ run', m run = some (out.1, run') ∧ run'.now = out.2 ∧ ∀ b ∈ run'.states, I b := by
  obtain ⟨run', hm, hnow, hstates⟩ := h
  exact ⟨run', hm, hnow, fun b hb => (hstates b hb).elim (hrun b) id⟩

/-- The state in which a run ends that was begun for this computation. -/
theorem ends {m : Checked α} {out : α × Bindings} {b : Bindings} (h : Follows I m ⟨b, []⟩ out)
    (hb : I b) : I out.2 := by
  obtain ⟨run, -, hnow, hstates⟩ := h.forall_states fun c hc => List.mem_singleton.1 hc ▸ hb
  exact hnow ▸ hstates _ (List.mem_cons_self ..)

end Follows

end Checked

/-! ### Invariants in bounds -/

/-- A request accesses nodes of the tree and symbols of the graph only. -/
def Program.Request.InBounds (ast : Ast) (b : Bindings) : Program.Request → Prop
  | .node id => id < ast.size
  | .symbol id | .setProp id _ _ | .markExported id => id < b.graph.size
  | .report _ | .alloc _ | .perform _ => True

namespace Checked

variable {ast : Ast} {holds : Bindings → Prop} {knows : Bindings → SymbolId → Prop}
  {performs : Task → Checked (Option SymbolId)} {run : Run}

theorem answer_follows {q : Program.Request} (hq : q.InBounds ast run.now)
    (hholds : holds (q.answer { ast } run.now).2)
    (hperform : ∀ t, q = .perform t → Follows holds (performs t) run (t.run { ast } run.now)) :
    Follows holds (answer ast performs q) run (q.answer { ast } run.now) := by
  cases q with
  | node id => exact .of_read (if_pos hq)
  | symbol id => exact .of_read (symbol_eq hq)
  | report d => exact .report rfl hholds
  | alloc s => exact .alloc rfl hholds
  | setProp id key t => exact .setProp rfl hq hholds
  | markExported id => exact .markExported rfl hq hholds
  | perform t => exact hperform t rfl

/-- A program is not stopped whose requests are allowed, if what is allowed is granted and in
bounds. -/
theorem runProgram_follows {ok : Bindings → Program.Request → Prop}
    (hok : ∀ b q, holds b → ok b q → Program.Granted { ast } holds knows b q ∧ q.InBounds ast b)
    (hperform : ∀ (run : Run) (t : Task), holds run.now → ok run.now (.perform t) →
      Follows holds (performs t) run (t.run { ast } run.now))
    {α : Type} {Q : α → Bindings → Prop} {p : Program α}
    (hp : p.Safe { ast } holds knows ok Q run.now) (hrun : holds run.now) :
    Follows holds (runProgram ast performs p) run (p.run { ast } run.now) := by
  induction p generalizing run with
  | done a => exact .of_read rfl
  | ask q next ih =>
      obtain ⟨hgranted, hbounds⟩ := hok run.now q hrun hp.1
      have hanswer := answer_follows hbounds hgranted.holds
        fun t ht => hperform run t hrun (ht ▸ hp.1)
      refine .bind hanswer fun run' hnow => ?_
      have hnext := hp.2 hgranted
      rw [Program.run, ← hnow]
      rw [← hnow] at hnext
      exact ih _ hnext (hnow ▸ hgranted.holds)

end Checked

namespace Invariant

variable {ast : Ast} (inv : Invariant { ast }) {t : Task} {run : Run}

/-- What the invariant allows is about nodes of the tree, and what it knows are symbols of the
graph. -/
structure Bounded : Prop where
  node_lt : ∀ {t : Task} {b : Bindings}, inv.allows t b → ∀ n, ast.Occurs t.node n → n < ast.size
  home_lt : ∀ {t : Task} {b : Bindings}, inv.allows t b → inv.holds b → t.home < b.graph.size
  root_lt : ∀ {b : Bindings}, inv.holds b → root < b.graph.size
  known_lt : ∀ {b : Bindings} {s : SymbolId}, inv.knows b s → s < b.graph.size

variable {inv}

theorem Bounded.sees_lt (h : inv.Bounded) {b₀ b : Bindings}
    (hway : Underway inv.allows inv.holds t b₀ b) {id : SymbolId} (hid : t.Sees inv.knows b id) :
    id < b.graph.size := by
  rcases hid with rfl | rfl | hid
  · exact h.root_lt hway.holds
  · exact Nat.lt_of_lt_of_le (h.home_lt hway.allowed hway.started) hway.grows.size_le
  · exact h.known_lt hid

theorem Bounded.request (h : inv.Bounded) {b₀ b : Bindings} {q : Program.Request}
    (hway : Underway inv.allows inv.holds t b₀ b) (hq : Licence { ast } inv.knows t b₀ b q) :
    q.InBounds ast b := by
  cases hq with
  | node hn => exact h.node_lt hway.allowed _ hn
  | symbol hid => exact h.sees_lt hway hid
  | setProp hid _ => exact h.sees_lt hway hid
  | markExported hid _ => exact h.sees_lt hway hid
  | perform _ => trivial
  | report _ => trivial
  | alloc _ => trivial

/-- **What an invariant allows to perform, and keeps in bounds, is not stopped**, and on the way the
state only grows, and the invariant holds. -/
theorem follows (h : inv.Bounded) (ht : inv.allows t run.now) (hrun : inv.holds run.now)
    {depth : Nat} (hdepth : t.rank < depth) :
    Checked.Follows (inv.Since run.now) (Checked.perform ast depth t) run
      (t.run { ast } run.now) := by
  induction depth generalizing t run with
  | zero => exact absurd hdepth (Nat.not_lt_zero _)
  | succ depth ih =>
      have hsince : inv.Since run.now run.now := ⟨hrun, .refl _⟩
      have hgranted := inv.granted ht hrun fun t' c _ ht' hc => inv.run ht' hc
      rw [← Task.run_program]
      refine Checked.runProgram_follows
        (fun b q hb hq => ⟨hgranted b q hb hq, h.request ⟨ht, hrun, hb.1, hb.2⟩ hq⟩) ?_
        (t.safe (inv.knowledge_since run.now) hsince) hsince
      intro run' t' hrun' hlicence
      cases hlicence with
      | perform hask =>
          have hrank := Nat.lt_of_lt_of_le hask.rank_lt (Nat.le_of_lt_succ hdepth)
          have hfollows := ih (inv.asked ⟨ht, hrun, hrun'.1, hrun'.2⟩ hask) hrun'.1 hrank
          exact hfollows.mono fun b hb => ⟨hb.1, hrun'.2.trans hb.2⟩

theorem visit_follows (h : inv.Bounded) (ht : inv.allows t run.now) (hrun : inv.holds run.now) :
    Checked.Follows (inv.Since run.now) (Checked.visit ast t) run ((), (t.run { ast } run.now).2) :=
  .bind (follows h ht hrun (Nat.lt_succ_self _)) fun run' hnow => hnow ▸ .of_read rfl

section passes

variable {id : NodeId} (h : inv.Bounded) (hrun : inv.holds run.now)
include h hrun

theorem declare_follows (ht : inv.allows (.declare (id + 1) id) run.now) :
    Checked.Follows (inv.Since run.now) (Checked.declare ast id) run
      ((), Resolver.declare { ast } id run.now) :=
  visit_follows h ht hrun

theorem assign_follows (ht : inv.allows (.assign (id + 1) id) run.now) :
    Checked.Follows (inv.Since run.now) (Checked.assign ast id) run
      ((), Resolver.assign { ast } id run.now) :=
  visit_follows h ht hrun

end passes

end Invariant

end ExportSurface

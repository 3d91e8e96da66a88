/-
The binder as something that performs tasks, one request at a time.

There are four kinds of tasks: to resolve a node, to bind a target, and to pass over a node in
either pass.  Whatever happens while a task is performed happens at its request: a node of the tree
or a symbol of the graph is read, the state is changed, or another task is performed.  A program is
the tree of the requests that a computation makes, each followed by what is done with the answer,
and running a program answers its requests in a state.

What is known of single requests is carried over to whole programs here, once and for all: if every
request of a run is allowed, and requests that are allowed keep an invariant, then the run keeps it.

Main definitions:

* `Task`, `Task.run` — what there is to do, and what comes of it;
* `Program`, `Program.Request`, `Program.run` — computations that make requests, and running them;
* `Bindings.Grows` — the graph has evolved, and diagnostics were added;
* `Program.Safe` — every request of a run is allowed.

Main results:

* `Program.run_bind`, `Program.run_forM` — programs one after the other;
* `Program.Safe.bind`, `Program.Safe.forM` — the same for safe ones;
* `Program.Safe.run` — **a run whose requests are allowed keeps the invariant**.
-/

import ExportSurface.Binding.Passes
import ExportSurface.Proofs.GraphChanges

set_option autoImplicit false

namespace ExportSurface

open SymbolGraph (root)

/-! ### Tasks -/

/-- Something that the binder can be asked to do, with the depth that is left for it. -/
inductive Task where
  | resolve (levels : Nat) (id : NodeId) (scope : Option SymbolId) (options : ResolveOptions)
  | bind (levels : Nat) (target : NodeId) (value : Option NodeId) (scope : Option SymbolId)
  | declare (fuel : Nat) (id : NodeId)
  | assign (fuel : Nat) (id : NodeId)

namespace Task

/-- The node that a task is about. -/
def node : Task → NodeId
  | resolve _ id _ _ | bind _ id _ _ | declare _ id | assign _ id => id

/-- The nodes that a task is given. -/
def given : Task → List NodeId
  | resolve _ id _ _ | declare _ id | assign _ id => [id]
  | bind _ target value _ => target :: value.toList

/-- Is it a pass that declares? -/
def declares : Task → Bool
  | declare _ _ => true
  | _ => false

/-- Is it a pass that assigns? -/
def assigns : Task → Bool
  | assign _ _ => true
  | _ => false

/-- The symbol in which names are looked up first. -/
def home : Task → SymbolId
  | resolve _ _ scope _ | bind _ _ _ scope => scope.getD root
  | declare _ _ | assign _ _ => root

/-- What a task comes to: the symbol that was found or stored, and the state that is left. -/
def run (r : Resolver) : Task → Bindings → Option SymbolId × Bindings
  | resolve levels id scope options => r.resolve levels id scope options
  | bind levels target value scope => r.bind levels target value scope
  | declare fuel id => fun b => (none, r.declareThrough fuel id b)
  | assign fuel id => fun b => (none, r.assignThrough fuel id b)

theorem node_mem_given (t : Task) : t.node ∈ t.given := by
  cases t <;> exact List.mem_cons_self ..

end Task

/-! ### Requests and programs -/

/-- What a program asks for. -/
inductive Program.Request where
  | node (id : NodeId)
  | symbol (id : SymbolId)
  | report (d : Diagnostic)
  | alloc (s : Symbol)
  | setProp (id : SymbolId) (key : String) (target : SymbolId)
  | markExported (id : SymbolId)
  | perform (t : Task)

namespace Program.Request

/-- What there is to answer. -/
@[reducible] def Answer : Program.Request → Type
  | node _ => Node
  | symbol _ => Symbol
  | alloc _ => SymbolId
  | perform _ => Option SymbolId
  | report _ | setProp _ _ _ | markExported _ => Unit

/-- The answer in a state, and the state after it. -/
def answer (r : Resolver) (b : Bindings) : (q : Program.Request) → q.Answer × Bindings
  | node id => (r.ast.node id, b)
  | symbol id => (b.graph.get id, b)
  | report d => ((), b.report d)
  | alloc s => b.alloc s
  | setProp id key t => ((), b.setProp id key t)
  | markExported id => ((), b.markExported id)
  | perform t => t.run r b

end Program.Request

/-- A computation, request by request. -/
inductive Program (α : Type) where
  | done (a : α)
  | ask (q : Program.Request) (next : q.Answer → Program α)

namespace Program

variable {α β : Type}

protected def bind : Program α → (α → Program β) → Program β
  | done a, k => k a
  | ask q next, k => ask q fun a => (next a).bind k

instance : Monad Program where
  pure := done
  bind := Program.bind

def node (id : NodeId) : Program Node := ask (.node id) done

def symbol (id : SymbolId) : Program Symbol := ask (.symbol id) done

def report (d : Diagnostic) : Program Unit := ask (.report d) done

def alloc (s : Symbol) : Program SymbolId := ask (.alloc s) done

def setProp (id : SymbolId) (key : String) (target : SymbolId) : Program Unit :=
  ask (.setProp id key target) done

def markExported (id : SymbolId) : Program Unit := ask (.markExported id) done

def perform (t : Task) : Program (Option SymbolId) := ask (.perform t) done

/-! ### Running -/

section run

variable (r : Resolver)

/-- Answer the requests of a program, from a state on. -/
def run : Program α → Bindings → α × Bindings
  | done a, b => (a, b)
  | ask q next, b => (next (q.answer r b).1).run (q.answer r b).2

variable (b : Bindings)

@[simp] theorem run_pure (a : α) : (pure a : Program α).run r b = (a, b) := rfl

@[simp] theorem run_node (id : NodeId) : (node id).run r b = (r.ast.node id, b) := rfl

@[simp] theorem run_symbol (id : SymbolId) : (symbol id).run r b = (b.graph.get id, b) := rfl

@[simp] theorem run_report (d : Diagnostic) : (report d).run r b = ((), b.report d) := rfl

@[simp] theorem run_alloc (s : Symbol) : (alloc s).run r b = b.alloc s := rfl

@[simp] theorem run_setProp (id : SymbolId) (key : String) (t : SymbolId) :
    (setProp id key t).run r b = ((), b.setProp id key t) := rfl

@[simp] theorem run_markExported (id : SymbolId) :
    (markExported id).run r b = ((), b.markExported id) := rfl

@[simp] theorem run_perform (t : Task) : (perform t).run r b = t.run r b := rfl

@[simp] theorem run_bind (p : Program α) (k : α → Program β) :
    (p >>= k).run r b = (k (p.run r b).1).run r (p.run r b).2 := by
  induction p generalizing b with
  | done a => rfl
  | ask q next ih => exact ih _ _

/-- A loop runs like a fold. -/
theorem run_forM {f : α → Program Unit} {step : Bindings → α → Bindings}
    (hf : ∀ b a, ((f a).run r b).2 = step b a) (l : List α) :
    (l.forM f).run r b = ((), l.foldl step b) := by
  induction l generalizing b with
  | nil => rfl
  | cons a l ih =>
      change (f a >>= fun _ => l.forM f).run r b = _
      rw [run_bind, hf, ih]
      rfl

end run

end Program

/-! ### Growth -/

/-- The graph has evolved, and diagnostics were added. -/
structure Bindings.Grows (b b' : Bindings) : Prop where
  graph : b.graph.Evolves b'.graph
  reports : b.diagnostics.toList <+: b'.diagnostics.toList

namespace Bindings.Grows

variable {b b' b'' : Bindings}

theorem refl (b : Bindings) : b.Grows b := ⟨.refl _, List.prefix_rfl⟩

theorem trans (h : b.Grows b') (h' : b'.Grows b'') : b.Grows b'' :=
  ⟨h.graph.trans h'.graph, h.reports.trans h'.reports⟩

theorem report (b : Bindings) (d : Diagnostic) : b.Grows (b.report d) := ⟨.refl _, by simp⟩

theorem alloc (b : Bindings) (s : Symbol) : b.Grows (b.alloc s).2 :=
  ⟨.alloc b.graph s, List.prefix_rfl⟩

theorem setProp (b : Bindings) (id : SymbolId) (key : String) (t : SymbolId) :
    b.Grows (b.setProp id key t) :=
  ⟨.setProp b.graph id key t, List.prefix_rfl⟩

theorem markExported (b : Bindings) (id : SymbolId) : b.Grows (b.markExported id) :=
  ⟨.markExported b.graph id, List.prefix_rfl⟩

theorem foldl {α : Type} {f : Bindings → α → Bindings}
    (hf : ∀ (b : Bindings) (a : α), b.Grows (f b a)) (l : List α) (b : Bindings) :
    b.Grows (l.foldl f b) := by
  induction l generalizing b with
  | nil => exact .refl b
  | cons a l ih => exact (hf b a).trans (ih (f b a))

theorem size_le (h : b.Grows b') : b.graph.size ≤ b'.graph.size := h.graph.size_le

section symbol

variable {id : SymbolId} (h : b.Grows b') (hid : id < b.graph.size)
include h hid

theorem kind_eq : (b'.graph.get id).kind = (b.graph.get id).kind := (h.graph.symbol id hid).kind_eq

theorem hasMembers_eq : (b'.graph.get id).hasMembers = (b.graph.get id).hasMembers := by
  rw [Symbol.hasMembers, Symbol.hasMembers, h.kind_eq hid]

theorem wraps_eq (n : NodeId) : (b'.graph.get id).wraps n = (b.graph.get id).wraps n := by
  rw [Symbol.wraps, Symbol.wraps, h.kind_eq hid, (h.graph.symbol id hid).value_eq]

end symbol

/-- A symbol that yields a key goes on yielding it. -/
theorem key?_eq (h : b.Grows b') {id : SymbolId} {key : String}
    (hid : (b.graph.get id).key? = some key) : (b'.graph.get id).key? = some key := by
  have hlt : id < b.graph.size := by
    rcases Nat.lt_or_ge id b.graph.size with hlt | hge
    · exact hlt
    · rw [SymbolGraph.get_of_size_le hge] at hid
      contradiction
  rwa [Symbol.key?, h.kind_eq hlt, (h.graph.symbol id hlt).scalar_eq]

end Bindings.Grows

/-! ### Safe programs -/

namespace Program

section safe

variable (r : Resolver) (holds : Bindings → Prop) (knows : Bindings → SymbolId → Prop)
  (ok : Bindings → Program.Request → Prop)

/-- What can be relied on after a request: the invariant holds, the state has grown, and a task that
was performed has found a symbol that is known. -/
structure Granted (b : Bindings) (q : Program.Request) : Prop where
  holds : holds (q.answer r b).2
  grows : b.Grows (q.answer r b).2
  found : ∀ t, q = .perform t → ∀ s, (t.run r b).1 = some s → knows (t.run r b).2 s

/-- Every request of a run is allowed in its state, if the requests before it have been granted; and
what comes of it satisfies `Q`. -/
def Safe {α : Type} (Q : α → Bindings → Prop) : Program α → Bindings → Prop
  | done a, b => Q a b
  | ask q next, b => ok b q ∧
      (Granted r holds knows b q → (next (q.answer r b).1).Safe Q (q.answer r b).2)

end safe

namespace Safe

variable {r : Resolver} {holds : Bindings → Prop} {knows : Bindings → SymbolId → Prop}
  {ok : Bindings → Program.Request → Prop} {α β : Type} {Q : α → Bindings → Prop}
  {S : β → Bindings → Prop} {b : Bindings}

theorem mono {Q' : α → Bindings → Prop} {p : Program α} (hQ : ∀ a b, Q a b → Q' a b)
    (h : p.Safe r holds knows ok Q b) : p.Safe r holds knows ok Q' b := by
  induction p generalizing b with
  | done a => exact hQ a b h
  | ask q next ih => exact ⟨h.1, fun hgranted => ih _ (h.2 hgranted)⟩

/-- One program after another: the second one goes on from where the first one ends. -/
theorem bind {p : Program α} {k : α → Program β} (hp : p.Safe r holds knows ok Q b)
    (hk : Q (p.run r b).1 (p.run r b).2 →
      (k (p.run r b).1).Safe r holds knows ok S (p.run r b).2) :
    (p >>= k).Safe r holds knows ok S b := by
  induction p generalizing b with
  | done a => exact hk hp
  | ask q next ih => exact ⟨hp.1, fun hgranted => ih _ (hp.2 hgranted) hk⟩

/-- What holds of the outcome holds of what comes of it. -/
theorem ends {p : Program α} (hp : p.Safe r holds knows ok (fun _ _ => True) b)
    (hQ : Q (p.run r b).1 (p.run r b).2) : p.Safe r holds knows ok Q b := by
  induction p generalizing b with
  | done a => exact hQ
  | ask q next ih => exact ⟨hp.1, fun hgranted => ih _ (hp.2 hgranted) hQ⟩

/-- A program that leaves the state as it is. -/
theorem read {p : Program α} {k : α → Program β} {a : α} (hrun : p.run r b = (a, b))
    (hp : p.Safe r holds knows ok (fun _ _ => True) b)
    (hk : (k a).Safe r holds knows ok S b) : (p >>= k).Safe r holds knows ok S b := by
  refine .bind hp fun _ => ?_
  rw [hrun]
  exact hk

/-- A loop, each round of which goes on from where the rounds before it have come. -/
theorem forM {f : α → Program Unit} {l : List α} {step : Bindings → α → Bindings}
    (hstep : ∀ c a, ((f a).run r c).2 = step c a) {P : Bindings → Prop}
    (hf : ∀ before a after, l = before ++ a :: after → P (before.foldl step b) →
      (f a).Safe r holds knows ok (fun _ c => P c) (before.foldl step b))
    (hb : P b) : (l.forM f).Safe r holds knows ok (fun _ c => P c) b := by
  -- the loop is followed from any point on, with what lies behind it as a parameter
  suffices h : ∀ after before, l = before ++ after → P (before.foldl step b) →
      (after.forM f).Safe r holds knows ok (fun _ c => P c) (before.foldl step b) from
    h l [] rfl hb
  intro after
  induction after with
  | nil => exact fun _ _ hP => hP
  | cons a after ih =>
      intro before hl hP
      refine .bind (hf before a after hl hP) fun hP' => ?_
      have hround : ((f a).run r (before.foldl step b)).2 = (before ++ [a]).foldl step b := by
        rw [hstep, List.foldl_append]
        rfl
      rw [hround] at hP' ⊢
      exact ih (before ++ [a]) (by rw [hl, List.append_assoc]; rfl) hP'

/-- **A run whose requests are allowed keeps the invariant**, if each request that is allowed is
granted. -/
theorem run {p : Program α} (hok : ∀ b q, holds b → ok b q → Granted r holds knows b q)
    (h : p.Safe r holds knows ok Q b) (hb : holds b) :
    Q (p.run r b).1 (p.run r b).2 ∧ holds (p.run r b).2 ∧ b.Grows (p.run r b).2 := by
  induction p generalizing b with
  | done a => exact ⟨h, hb, .refl b⟩
  | ask q next ih =>
      have hgranted := hok b q hb h.1
      obtain ⟨hQ, hend, hgrows⟩ := ih _ (h.2 hgranted) hgranted.holds
      exact ⟨hQ, hend, hgranted.grows.trans hgrows⟩

end Safe

end Program

end ExportSurface

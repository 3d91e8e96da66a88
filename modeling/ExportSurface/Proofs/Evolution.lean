/-
How a symbol graph evolves.

Whatever is asked of a resolver, and in whatever order, the graph only grows: a symbol keeps what it
stands for, its properties are added or redirected but never dropped, and its flag is never taken
back.  This rests on there being three kinds of changes only, each of which has these properties,
and on every operation being made of such changes.

Where flags come from is said exactly.  A symbol is flagged after a sequence of operations if it was
before, or if one of the operations assigned an export that denoted the symbol at that point.
Resolving, binding and declaring assign nothing, so they flag nothing.

Main definitions:

* `Resolver.Operation` — the things that a resolver can be asked to do.

Main results:

* `Resolver.Operation.run_evolves` — every operation evolves the graph;
* `Resolver.Operation.flagged_run_iff` — what one operation flags;
* `Resolver.Operation.runAll_evolves` — **every sequence of operations evolves the graph**.
-/

import ExportSurface.Proofs.Channels

set_option autoImplicit false

namespace ExportSurface

open SymbolGraph (root)

/-! ### Operations -/

namespace Resolver

/-- What a resolver can be asked to do. -/
inductive Operation where
  | resolve (levels : Nat) (node : NodeId) (scope : Option SymbolId) (options : ResolveOptions)
  | bind (levels : Nat) (target : NodeId) (value : Option NodeId) (scope : Option SymbolId)
  | declare (node : NodeId)
  | assign (node : NodeId)
  | bindModule

namespace Operation

def run (r : Resolver) (b : Bindings) : Operation → Bindings
  | .resolve levels node scope options => (r.resolve levels node scope options b).2
  | .bind levels target value scope => (r.bind levels target value scope b).2
  | .declare node => r.declare node b
  | .assign node => r.assign node b
  | .bindModule => r.bindModule b

/-- One operation after the other. -/
def runAll (r : Resolver) (operations : List Operation) (b : Bindings) : Bindings :=
  operations.foldl (run r) b

/-- The nodes and the scope that an operation is given exist. -/
def InRange (r : Resolver) (b : Bindings) : Operation → Prop
  | .resolve _ node scope _ => node < r.ast.size ∧ scope.getD root < b.graph.size
  | .bind _ target value scope =>
      target < r.ast.size ∧ (∀ v ∈ value, v < r.ast.size) ∧ scope.getD root < b.graph.size
  | .declare node => node < r.ast.size
  | .assign node => node < r.ast.size
  | .bindModule => r.ast.program < r.ast.size

/-- Each operation of a sequence is given what exists by then. -/
def AllInRange (r : Resolver) : List Operation → Bindings → Prop
  | [], _ => True
  | op :: rest, b => op.InRange r b ∧ AllInRange r rest (op.run r b)

/-- The operations that assign nothing. -/
def isQuiet : Operation → Bool
  | .resolve .. | .bind .. | .declare _ => true
  | .assign _ | .bindModule => false

/-- The operation assigns the node, in the given state. -/
def Assigns (r : Resolver) (b : Bindings) (n : NodeId) (c : Bindings) : Operation → Prop
  | .assign node => r.Visits node b n c
  | .bindModule => r.Visits r.ast.program (r.declare r.ast.program b) n c
  | _ => False

/-- Some operation of a sequence assigns the node, in the given state. -/
def SomeAssigns (r : Resolver) (n : NodeId) (c : Bindings) : List Operation → Bindings → Prop
  | [], _ => False
  | op :: rest, b => op.Assigns r b n c ∨ SomeAssigns r n c rest (op.run r b)

instance instDecidableInRange (r : Resolver) (b : Bindings) :
    (op : Operation) → Decidable (op.InRange r b)
  | .resolve _ node scope _ =>
      inferInstanceAs (Decidable (node < r.ast.size ∧ scope.getD root < b.graph.size))
  | .bind _ target value scope =>
      inferInstanceAs (Decidable
        (target < r.ast.size ∧ (∀ v ∈ value, v < r.ast.size) ∧ scope.getD root < b.graph.size))
  | .declare node => inferInstanceAs (Decidable (node < r.ast.size))
  | .assign node => inferInstanceAs (Decidable (node < r.ast.size))
  | .bindModule => inferInstanceAs (Decidable (r.ast.program < r.ast.size))

instance instDecidableAllInRange (r : Resolver) :
    (operations : List Operation) → (b : Bindings) → Decidable (AllInRange r operations b)
  | [], _ => isTrue trivial
  | op :: rest, b =>
      have := instDecidableAllInRange r rest (op.run r b)
      inferInstanceAs (Decidable (op.InRange r b ∧ AllInRange r rest (op.run r b)))

section run

variable {r : Resolver} {b : Bindings} {op : Operation}

/-- **One operation evolves the graph**, also on nodes and scopes that do not exist. -/
theorem run_evolves (r : Resolver) (b : Bindings) (op : Operation) :
    b.graph.Evolves (op.run r b).graph := by
  cases op with
  | resolve levels node scope options => exact (r.resolve_grows b levels node scope options).graph
  | bind levels target value scope => exact (r.bind_grows b levels target value scope).graph
  | declare node => exact (r.declareThrough_grows b (node + 1) node).graph
  | assign node => exact (r.assignThrough_grows b (node + 1) node).graph
  | bindModule =>
      have hdeclare := (r.declareThrough_grows b (r.ast.program + 1) r.ast.program).graph
      exact hdeclare.trans (r.assignThrough_grows _ (r.ast.program + 1) r.ast.program).graph

theorem evolves_runAll (r : Resolver) (operations : List Operation) (b : Bindings) :
    b.graph.Evolves (runAll r operations b).graph := by
  induction operations generalizing b with
  | nil => exact .refl _
  | cons op rest ih => exact (run_evolves r b op).trans (ih (op.run r b))

theorem not_assigns_of_isQuiet (hquiet : op.isQuiet = true) {n : NodeId} {c : Bindings} :
    ¬ op.Assigns r b n c := by
  cases op with
  | resolve _ _ _ _ => exact id
  | bind _ _ _ _ => exact id
  | declare _ => exact id
  | assign _ => cases hquiet
  | bindModule => cases hquiet

/-- An operation that assigns nothing changes no flag. -/
theorem flagged_run_of_isQuiet (hquiet : op.isQuiet = true) (s : SymbolId) :
    (op.run r b).Flagged s ↔ b.Flagged s := by
  cases op with
  | resolve levels node scope options =>
      exact Task.flagged_iff r (t := .resolve levels node scope options) rfl b s
  | bind levels target value scope =>
      exact Task.flagged_iff r (t := .bind levels target value scope) rfl b s
  | declare node => exact Task.flagged_iff r (t := .declare (node + 1) node) rfl b s
  | assign _ => cases hquiet
  | bindModule => cases hquiet

variable (hfirst : r.ast.ChildrenFirst)
include hfirst

theorem inBounds_run (hop : op.InRange r b) (hb : b.InBounds) : (op.run r b).InBounds := by
  cases op with
  | resolve levels node scope options =>
      exact (resolve_inBounds hfirst hb levels hop.1 scope hop.2 options).1
  | bind levels target value scope =>
      obtain ⟨htarget, hvalue, hscope⟩ := hop
      exact (bind_inBounds hfirst hb levels target value (by simpa [htarget] using hvalue) scope
        hscope).1
  | declare node => exact declare_inBounds hfirst hb hop
  | assign node => exact assign_inBounds hfirst hb hop
  | bindModule => exact assign_inBounds hfirst (declare_inBounds hfirst hb hop) hop

/-- **What one operation flags**: what the exports that it assigns denote at that point. -/
theorem flagged_run_iff (hop : op.InRange r b) (hb : b.InBounds) (s : SymbolId) :
    (op.run r b).Flagged s ↔ b.Flagged s ∨ ∃ n c, op.Assigns r b n c ∧ s ∈ r.exportsAt n c := by
  cases hquiet : op.isQuiet with
  | true =>
      have hnone : ¬ ∃ n c, op.Assigns r b n c ∧ s ∈ r.exportsAt n c := by
        rintro ⟨n, c, hassigns, -⟩
        exact not_assigns_of_isQuiet hquiet hassigns
      exact (flagged_run_of_isQuiet hquiet s).trans (or_iff_left hnone).symm
  | false =>
      cases op with
      | assign node => exact flagged_assign_iff hfirst hop hb s
      | bindModule =>
          have hflags := flagged_assign_iff hfirst hop (declare_inBounds hfirst hb hop) s
          have hdeclare : (r.declare r.ast.program b).Flagged s ↔ b.Flagged s :=
            Task.flagged_iff r (t := .declare (r.ast.program + 1) r.ast.program) rfl b s
          rwa [hdeclare] at hflags
      | _ => cases hquiet

/-! ### Sequences of operations -/

/-- A sequence of operations flags what the exports that it assigns denote at that point. -/
theorem flagged_runAll_iff {operations : List Operation} (hops : AllInRange r operations b)
    (hb : b.InBounds) (s : SymbolId) :
    (runAll r operations b).Flagged s ↔
      b.Flagged s ∨ ∃ n c, SomeAssigns r n c operations b ∧ s ∈ r.exportsAt n c := by
  induction operations generalizing b with
  | nil => simp [runAll, SomeAssigns]
  | cons op rest ih =>
      obtain ⟨hop, hrest⟩ := hops
      have hall : runAll r (op :: rest) b = runAll r rest (op.run r b) := rfl
      rw [hall, ih hrest (inBounds_run hfirst hop hb), flagged_run_iff hfirst hop hb s,
        or_assoc]
      simp only [SomeAssigns, or_and_right, exists_or]

end run

theorem not_someAssigns_of_isQuiet {r : Resolver} {operations : List Operation} {b : Bindings}
    (hquiet : ∀ op ∈ operations, op.isQuiet = true) {n : NodeId} {c : Bindings} :
    ¬ SomeAssigns r n c operations b := by
  induction operations generalizing b with
  | nil => exact id
  | cons op rest ih =>
      rintro (hassigns | hrest)
      · exact not_assigns_of_isQuiet (hquiet op (List.mem_cons_self ..)) hassigns
      · exact ih (fun op hop => hquiet op (List.mem_cons_of_mem _ hop)) hrest

/-- **Every sequence of operations evolves the graph**, from any graph whose properties stay in it.
A symbol that is flagged afterwards was flagged before, or some operation assigned an export that
denoted it then.  So operations that assign nothing leave the flags as they are, and flag none of
the symbols that they add. -/
theorem runAll_evolves (ast : Ast) (hfirst : ast.ChildrenFirst) (b : Bindings)
    (hrange : b.graph.InRange) (hroot : root < b.graph.size) (operations : List Operation)
    (hops : AllInRange { ast } operations b) :
    b.graph.Evolves (runAll { ast } operations b).graph ∧
      (∀ s, (runAll { ast } operations b).Flagged s ↔ b.Flagged s ∨
        ∃ n c, SomeAssigns { ast } n c operations b ∧ (ast.node n).isExport = true ∧
          s ∈ exportsAt { ast } n c) ∧
      ((∀ op ∈ operations, op.isQuiet = true) →
        (∀ s < b.graph.size, (runAll { ast } operations b).Flagged s ↔ b.Flagged s) ∧
        ∀ s, b.graph.size ≤ s → ¬ (runAll { ast } operations b).Flagged s) := by
  have hb : b.InBounds := ⟨hrange, hroot⟩
  have hflags : ∀ s, (runAll { ast } operations b).Flagged s ↔ b.Flagged s ∨
      ∃ n c, SomeAssigns { ast } n c operations b ∧ s ∈ exportsAt { ast } n c :=
    flagged_runAll_iff hfirst hops hb
  refine ⟨evolves_runAll { ast } operations b, ?_, ?_⟩
  · intro s
    rw [hflags s]
    refine or_congr Iff.rfl ⟨?_, ?_⟩
    · rintro ⟨n, c, hassigns, hs⟩
      cases hexport : (ast.node n).isExport with
      | true => exact ⟨n, c, hassigns, hexport, hs⟩
      | false =>
          rw [exportsAt_eq_nil hexport] at hs
          exact absurd hs List.not_mem_nil
    · rintro ⟨n, c, hassigns, -, hs⟩
      exact ⟨n, c, hassigns, hs⟩
  · intro hquiet
    have hsame : ∀ s, (runAll { ast } operations b).Flagged s ↔ b.Flagged s := by
      intro s
      rw [hflags s, or_iff_left]
      rintro ⟨n, c, hassigns, -⟩
      exact not_someAssigns_of_isQuiet hquiet hassigns
    refine ⟨fun s _ => hsame s, ?_⟩
    intro s hs
    rw [hsame s, Bindings.Flagged, SymbolGraph.get_of_size_le hs]
    exact Bool.false_ne_true

/-- Bind the module `export { f }; const f = () => {};`, give `f` its value once more, export it
once more, and ask for the name of `f`. -/
def exportTwice : List Operation :=
  [.bindModule, .bind maxNesting 3 (some 4) none, .assign 2,
    .resolve 1 0 none { simpleIdentifier := true }]

/-- The second value of `f` is flagged, by the second export. -/
theorem exportTwice_evolves :
    AllInRange { ast := Analysis.exportBeforeValue } exportTwice (Analysis.start {}) ∧
      (Analysis.start {}).graph.Evolves
        (runAll { ast := Analysis.exportBeforeValue } exportTwice (Analysis.start {})).graph ∧
      (runAll { ast := Analysis.exportBeforeValue } exportTwice
        (Analysis.start {})).graph.global? "f" = some 6 ∧
      ∃ n c, SomeAssigns { ast := Analysis.exportBeforeValue } n c exportTwice
          (Analysis.start {}) ∧ (Analysis.exportBeforeValue.node n).isExport = true ∧
        6 ∈ exportsAt { ast := Analysis.exportBeforeValue } n c := by
  have hfirst : Analysis.exportBeforeValue.ChildrenFirst := by
    unfold Ast.ChildrenFirst
    decide
  have hops : AllInRange { ast := Analysis.exportBeforeValue } exportTwice (Analysis.start {}) := by
    decide +kernel
  have hrange : (Analysis.start {}).graph.InRange :=
    (Analysis.hoisting_start Analysis.exportBeforeValue {}).inBounds.inRange
  have hflagged : (runAll { ast := Analysis.exportBeforeValue } exportTwice
      (Analysis.start {})).Flagged 6 := by
    unfold Bindings.Flagged
    decide +kernel
  obtain ⟨hevolves, hflags, -⟩ :=
    runAll_evolves Analysis.exportBeforeValue hfirst (Analysis.start {}) hrange (by decide)
      exportTwice hops
  refine ⟨hops, hevolves, by decide +kernel, ?_⟩
  rcases (hflags 6).1 hflagged with hold | hnew
  · exact absurd hold (Analysis.not_flagged_start {} 6)
  · exact hnew

end Operation

end Resolver

end ExportSurface

/-
What resolving and binding leave alone.

Binding reads its target and its value, and then sets one property; if it does not get there, it has
only read.  So a binding that fails has changed no symbol that was there, at whatever depth it
failed and whatever was done by then.

Main results:

* `Resolver.bind_stores` — **binding only reads, and then sets one property if it answers**;
* `Resolver.resolve_bind_frame` — what resolving and binding leave alone, in terms of the symbols
  that were there.
-/

import ExportSurface.Proofs.Bounds
import ExportSurface.Proofs.Reading

set_option autoImplicit false

namespace ExportSurface

open SymbolGraph (root)

/-- Setting a property on both sides; a symbol that is new has none to be set. -/
theorem SymbolGraph.Extends.setProp {g g' : SymbolGraph} (h : g.Extends g') (id : SymbolId)
    (key : String) (t : SymbolId) : (g.setProp id key t).Extends (g'.setProp id key t) where
  size_le := by
    rw [size_setProp, size_setProp]
    exact h.size_le
  get_eq := by
    intro j hj
    rw [size_setProp] at hj
    rw [get_setProp, get_setProp, h.get_eq j hj]
    by_cases hid : j = id
    · subst hid
      rw [if_pos ⟨rfl, Nat.lt_of_lt_of_le hj h.size_le⟩, if_pos ⟨rfl, hj⟩]
    · rw [if_neg fun hc => hid hc.1, if_neg fun hc => hid hc.1]

namespace Resolver

open Bindings (ReadSteps)

/-! ### Binding -/

/-- Without an answer there was only reading; with one, an entry is set to it after reading. -/
inductive StoresAnswer (entry : SymbolId → String → Bindings → Prop) (b : Bindings) :
    Option SymbolId × Bindings → Prop where
  | failed {c : Bindings} : ReadSteps false b.graph.size b c → StoresAnswer entry b (none, c)
  | stored {owner s : SymbolId} {key : String} {found c : Bindings} : entry owner key found →
      ReadSteps false b.graph.size b found → ReadSteps false b.graph.size found c →
      StoresAnswer entry b (some s, c.setProp owner key s)

section bind

variable {r : Resolver} {b : Bindings} {target : NodeId} {levels : Nat}

theorem bindName_stores {entry : SymbolId → String → Bindings → Prop} {name : String}
    {scope : SymbolId} (hentry : entry scope name b) {value : Option NodeId}
    (hvalue : ∀ v, value = some v → r.ast.AssignmentFree v) (target : NodeId) :
    StoresAnswer entry b (bindName (r.resolve levels) target name value scope b) := by
  cases value with
  | none => exact .stored hentry .refl (.single (.alloc rfl))
  | some v =>
      have hreads :=
        resolve_reads r levels (hvalue v rfl) (some scope) {} (Nat.le_refl b.graph.size)
      rw [bindName]
      generalize r.resolve levels v (some scope) {} b = out at hreads ⊢
      obtain ⟨s, c⟩ := out
      cases s with
      | none => exact .failed (hreads.tail (.report _))
      | some s => exact .stored hentry .refl hreads

theorem bindMember_stores {base property : NodeId} {computed : Bool} {scope : Option SymbolId}
    (hnode : r.ast.node target = .member base property computed)
    (htarget : r.ast.AssignmentFree target) {value : Option NodeId}
    (hvalue : ∀ v, value = some v → r.ast.AssignmentFree v) :
    StoresAnswer (r.Addresses levels target scope b) b
      (r.bindMember (r.resolve levels) target base property computed value
        (scope.getD root) b) := by
  have hbase : r.ast.AssignmentFree base := htarget.part (by simp [hnode, Node.references])
  have hprop : r.ast.AssignmentFree property := htarget.part (by simp [hnode, Node.references])
  have hreads := resolve_reads r levels hbase (some (scope.getD root)) {} (Nat.le_refl b.graph.size)
  obtain ⟨owner, c, hout⟩ : ∃ owner c,
      r.resolve levels base (some (scope.getD root)) {} b = (owner, c) := ⟨_, _, rfl⟩
  rw [hout] at hreads
  have hkey := memberKey?_reads r levels hprop computed (some (scope.getD root)) hreads.size_le
  obtain ⟨key, d, hkeyed⟩ : ∃ key d, r.memberKey? (r.resolve levels) property computed
      (some (scope.getD root)) c = (key, d) := ⟨_, _, rfl⟩
  rw [hkeyed] at hkey
  rw [bindMember]
  simp only [hout, hkeyed]
  have hboth : ReadSteps false b.graph.size b d := hreads.trans hkey
  cases howner : owner.filter fun s => (c.graph.get s).hasMembers with
  | none => exact .failed (hboth.tail (.report _))
  | some o =>
      obtain ⟨rfl, hmembers⟩ := Option.filter_eq_some_iff.1 howner
      cases key with
      | none => exact .failed (hboth.tail (.report _))
      | some key =>
          cases value with
          | none => exact .failed (hboth.tail (.report _))
          | some v =>
              have hreads' :=
                resolve_reads r levels (hvalue v rfl) (some (scope.getD root)) {} hboth.size_le
              dsimp only
              generalize r.resolve levels v (some (scope.getD root)) {} d = out at hreads' ⊢
              obtain ⟨s, e⟩ := out
              cases s with
              | none => exact .failed ((hboth.trans hreads').tail (.report _))
              | some s =>
                  exact .stored (.member hnode hout hmembers hkeyed) hreads (hkey.trans hreads')

/-- **Binding only reads, and then sets one property if it answers.** -/
theorem bind_stores (levels : Nat) (htarget : r.ast.AssignmentFree target) {value : Option NodeId}
    (hvalue : ∀ v, value = some v → r.ast.AssignmentFree v) (scope : Option SymbolId)
    (b : Bindings) :
    StoresAnswer (r.Addresses levels target scope b) b (r.bind levels target value scope b) := by
  rw [bind, bindWith]
  cases hnode : r.ast.node target with
  | classDeclaration id body =>
      cases id with
      | none => exact .failed .refl
      | some id =>
          have hbody : r.ast.AssignmentFree body := htarget.part (by simp [hnode, Node.references])
          dsimp only
          cases hid : r.ast.node id with
          | identifier name =>
              exact bindName_stores (.className hnode hid)
                (fun v hv => Option.some.inj hv ▸ hbody) id
          | _ => exact .failed .refl
  | functionDeclaration id =>
      cases id with
      | none => exact .failed .refl
      | some id =>
          dsimp only
          cases hid : r.ast.node id with
          | identifier name =>
              exact bindName_stores (.functionName hnode hid)
                (fun v hv => Option.some.inj hv ▸ htarget) id
          | _ => exact .failed .refl
  | identifier name => exact bindName_stores (.name hnode) hvalue target
  | member base property computed => exact bindMember_stores hnode htarget hvalue
  | _ => exact .failed .refl

/-- The owner is in the graph in which it is found. -/
theorem Addresses.lt_size (hfirst : r.ast.ChildrenFirst) {scope : Option SymbolId}
    (hb : b.InBounds) (hscope : scope.getD root < b.graph.size) {owner : SymbolId} {key : String}
    {found : Bindings} (h : r.Addresses levels target scope b owner key found) :
    owner < found.graph.size := by
  cases h with
  | name _ => exact hscope
  | functionName _ _ => exact hb.root_lt
  | className _ _ => exact hb.root_lt
  | @member base _ _ _ _ _ _ hnode hout _ _ =>
      have htarget : target < r.ast.size := Ast.lt_size_of_node_ne (by simp [hnode])
      have hbase : base < r.ast.size := hfirst.lt_size htarget (by simp [hnode, Node.references])
      have hlt := (resolve_inBounds hfirst hb levels hbase (some (scope.getD root)) hscope {}).2
        owner (congrArg Prod.fst hout)
      rwa [hout] at hlt

end bind

/-! ### The symbols that were there -/

/-- **Frame law.**  Resolving an expression without assignments leaves every symbol that was there
as it is, and if missing members are made, it gives such symbols members that they lacked and
nothing else.  Binding a target and a value without assignments either has no answer and leaves
every symbol that was there as it is, or sets the entry that the target addresses to its answer,
and changes no other entry of these symbols. -/
theorem resolve_bind_frame (ast : Ast) (hfirst : ast.ChildrenFirst) (b : Bindings)
    (hrange : b.graph.InRange) (hroot : root < b.graph.size) (scope : Option SymbolId)
    (hscope : ∀ s, scope = some s → s < b.graph.size) :
    (∀ (n : NodeId) (options : ResolveOptions), ast.AssignmentFree n →
      ∀ answer c, resolve { ast } maxNesting n scope options b = (answer, c) →
        (options.createMissing = false → b.graph.Extends c.graph) ∧
        b.graph.Completes b.graph.size c.graph) ∧
    ∀ (target : NodeId) (value : Option NodeId), ast.AssignmentFree target →
      (∀ v, value = some v → ast.AssignmentFree v) →
      ∀ answer c, bind { ast } maxNesting target value scope b = (answer, c) →
        (answer = none → b.graph.Extends c.graph) ∧
        ∀ s, answer = some s → ∃ owner key found,
          Addresses { ast } maxNesting target scope b owner key found ∧
          c.graph.prop? owner key = some s ∧ (b.graph.setProp owner key s).Extends c.graph := by
  have hhome : scope.getD root < b.graph.size := by
    cases scope with
    | none => exact hroot
    | some s => exact hscope s rfl
  constructor
  · intro n options hn answer c hout
    have hreads := resolve_reads { ast } maxNesting hn scope options (Nat.le_refl b.graph.size)
    rw [hout] at hreads
    refine ⟨fun hoptions => ?_, hreads.completes (Nat.le_refl _)⟩
    rw [hoptions] at hreads
    exact hreads.extends_graph
  · intro target value htarget hvalue answer c hout
    have hstores := bind_stores (r := { ast }) maxNesting htarget hvalue scope b
    rw [hout] at hstores
    cases hstores with
    | failed hreads => exact ⟨fun _ => hreads.extends_graph, by simp⟩
    | @stored owner s key found d hentry hfound hrest =>
        have hlt := hentry.lt_size hfirst ⟨hrange, hroot⟩ hhome
        refine ⟨by simp, ?_⟩
        rintro _ ⟨rfl⟩
        refine ⟨owner, key, found, hentry, ?_, ?_⟩
        · have hlt' := Nat.lt_of_lt_of_le hlt hrest.size_le
          rw [Bindings.setProp_graph, SymbolGraph.prop?_setProp, if_pos ⟨⟨rfl, hlt'⟩, rfl⟩]
        · have hreads : ReadSteps false b.graph.size b d := hfound.trans hrest
          exact hreads.extends_graph.setProp owner key s

/-- The tree of `ns.run`, `{ go: () => {} }`, `lost` and `ns.deep.deeper`. -/
def namespaceAccesses : Ast where
  nodes := ([.identifier "ns", .identifier "run", .member 0 1 false, .identifier "go",
    .arrowFunction, .object [⟨3, 4, false⟩], .identifier "lost", .identifier "deep",
    .member 0 7 false, .identifier "deeper", .member 8 9 false, .program []].map
      fun n => ⟨n, ⟨0, 0⟩⟩).toArray
  program := 11

/-- A global `ns` that has a member `run`. -/
def namespaceStart : Bindings where
  graph :=
    let symbols := SymbolGraph.mk #[.placeholder, .object none, .placeholder]
    (symbols.setProp root "ns" 1).setProp 1 "run" 2

/-- Storing the object redirects `ns.run` and changes nothing else; storing a name without a value
changes nothing, and making `ns.deep.deeper` only adds members. -/
theorem namespaceStart_framed :
    (bind { ast := namespaceAccesses } maxNesting 2 (some 5) none namespaceStart).1 = some 3 ∧
      (namespaceStart.graph.setProp 1 "run" 3).Extends
        (bind { ast := namespaceAccesses } maxNesting 2 (some 5) none namespaceStart).2.graph ∧
      namespaceStart.graph.Extends
        (bind { ast := namespaceAccesses } maxNesting 2 (some 6) none namespaceStart).2.graph ∧
      namespaceStart.graph.Completes 3 (resolve { ast := namespaceAccesses } maxNesting 10 none
        { createMissing := true } namespaceStart).2.graph := by
  have hfirst : namespaceAccesses.ChildrenFirst := by
    unfold Ast.ChildrenFirst
    decide
  have hrange : namespaceStart.graph.InRange := by
    rw [SymbolGraph.InRange]
    decide
  have hfree : ∀ n, namespaceAccesses.AssignmentFree n := by
    intro n m _ t v hnode
    have hlt : m < namespaceAccesses.size := Ast.lt_size_of_node_ne (by simp [hnode])
    have hnames : ∀ m < namespaceAccesses.size,
        (namespaceAccesses.node m).name ≠ "AssignmentExpression" := by decide
    exact hnames m hlt (congrArg Node.name hnode)
  obtain ⟨hresolve, hbind⟩ := resolve_bind_frame namespaceAccesses hfirst namespaceStart hrange
    (by decide) none (by simp)
  obtain ⟨-, hstored⟩ := hbind 2 (some 5) (hfree 2) (fun v _ => hfree v) _ _ rfl
  obtain ⟨hfailed, -⟩ := hbind 2 (some 6) (hfree 2) (fun v _ => hfree v) _ _ rfl
  have hthree : (bind { ast := namespaceAccesses } maxNesting 2 (some 5) none namespaceStart).1 =
      some 3 := by decide +kernel
  obtain ⟨owner, key, found, hentry, -, hextends⟩ := hstored 3 hthree
  have hnode : namespaceAccesses.node 2 = .member 0 1 false := rfl
  have howner : owner = 1 ∧ key = "run" := by
    cases hentry with
    | name h => cases hnode.symm.trans h
    | functionName h _ => cases hnode.symm.trans h
    | className h _ => cases hnode.symm.trans h
    | member h hout _ hkey =>
        cases hnode.symm.trans h
        have hns : (resolve { ast := namespaceAccesses } maxNesting 0 (some root) {}
          namespaceStart).1 = some 1 := by decide +kernel
        have howner := hns.symm.trans (congrArg Prod.fst hout)
        have hname := congrArg Prod.fst hkey
        exact ⟨(Option.some.inj howner).symm, (Option.some.inj hname).symm⟩
  obtain ⟨rfl, rfl⟩ := howner
  exact ⟨hthree, hextends, hfailed (by decide +kernel),
    (hresolve 10 { createMissing := true } (hfree 10) _ _ rfl).2⟩

end Resolver

end ExportSurface

/-
Which symbols end up flagged as exported.

An export puts its flag on a symbol and not on a name.  So whether the value that a name has at the
end is flagged is decided at the exports themselves: it is flagged exactly if some export, at the
time the assignment pass came to it, denoted that very symbol.  A name that is exported first and
given its value later keeps the flag on its former symbol.

Main definitions:

* `Resolver.exportsAt` — the symbols that one node flags when it is assigned in a given state;
* `Resolver.Visits` — the nodes that the assignment pass comes to, with the states it has then.

Main results:

* `Task.flagged_iff` — resolving, binding and declaring change no flag;
* `Resolver.flagged_assign_iff` — what assigning a node flags;
* `Analysis.exported_iff_visited_export` — **a symbol is flagged at the end exactly if an export
  denoted it when it was visited**.
-/

import ExportSurface.Proofs.WellFormed
import Mathlib.Data.List.Basic

set_option autoImplicit false

namespace ExportSurface

open SymbolGraph (root)

/-! ### Flags -/

namespace Bindings

/-- The symbol is flagged as exported. -/
def Flagged (b : Bindings) (s : SymbolId) : Prop := (b.graph.get s).exported = true

variable {b b' : Bindings}

theorem flagged_alloc_iff {new : Symbol} (hnew : new.exported = false) (s : SymbolId) :
    (b.alloc new).2.Flagged s ↔ b.Flagged s := by
  rw [Flagged, Flagged, alloc_graph, SymbolGraph.get_alloc]
  split
  · next hs =>
      rw [hs, SymbolGraph.get_of_size_le (Nat.le_refl _), hnew]
      exact Iff.rfl
  · exact Iff.rfl

theorem flagged_setProp_iff {id t : SymbolId} {key : String} (s : SymbolId) :
    (b.setProp id key t).Flagged s ↔ b.Flagged s := by
  rw [Flagged, Flagged, setProp_graph, SymbolGraph.exported_setProp]

theorem flagged_markExported_iff {id : SymbolId} (hid : id < b.graph.size) (s : SymbolId) :
    (b.markExported id).Flagged s ↔ b.Flagged s ∨ s = id := by
  rw [Flagged, Flagged, markExported_graph, SymbolGraph.exported_markExported]
  constructor
  · rintro (h | ⟨rfl, -⟩)
    · exact .inl h
    · exact .inr rfl
  · rintro (h | rfl)
    · exact .inl h
    · exact .inr ⟨rfl, hid⟩

/-- Flagging what a search found. -/
theorem flagged_found_iff {found : Option SymbolId} {s : SymbolId}
    (hsame : b'.Flagged s ↔ b.Flagged s) (hlt : ∀ t, found = some t → t < b'.graph.size) :
    (found.elim b' b'.markExported).Flagged s ↔ b.Flagged s ∨ s ∈ found.toList := by
  cases found with
  | none => simpa using hsame
  | some t =>
      rw [Option.elim_some, flagged_markExported_iff (hlt t rfl), hsame]
      simp

/-- Flagging several symbols. -/
theorem flagged_foldl_iff {stored : List SymbolId} (hlt : ∀ t ∈ stored, t < b.graph.size)
    (s : SymbolId) :
    (stored.foldl markExported b).Flagged s ↔ b.Flagged s ∨ s ∈ stored := by
  induction stored generalizing b with
  | nil => simp
  | cons t rest ih =>
      have hrest : ∀ u ∈ rest, u < (b.markExported t).graph.size := by
        intro u hu
        simpa using hlt u (List.mem_cons_of_mem t hu)
      rw [List.foldl_cons, ih hrest, flagged_markExported_iff (hlt t (List.mem_cons_self ..)),
        List.mem_cons, or_assoc]

end Bindings

/-- Only the assignment pass changes flags. -/
theorem Change.flagged_iff {r : Resolver} {knows : Bindings → SymbolId → Prop} {b₀ b b' : Bindings}
    {t : Task} (h : Change r knows b₀ b t b') (ht : t.assigns = false) (s : SymbolId) :
    b'.Flagged s ↔ b.Flagged s := by
  cases h with
  | limit => exact Iff.rfl
  | report _ _ => exact Iff.rfl
  | alloc hmakes => exact Bindings.flagged_alloc_iff hmakes.exported s
  | fill _ _ _ => exact Bindings.flagged_setProp_iff s
  | create _ _ _ _ _ _ _ => exact Bindings.flagged_setProp_iff s
  | store _ _ _ _ _ _ => exact Bindings.flagged_setProp_iff s
  | window _ _ _ _ _ _ => exact Bindings.flagged_setProp_iff s
  | storeDefault _ _ => contradiction
  | mark _ => contradiction

/-- **Resolving, binding and declaring change no flag.** -/
theorem Task.flagged_iff (r : Resolver) {t : Task} (ht : t.assigns = false) (b : Bindings)
    (s : SymbolId) : (t.run r b).2.Flagged s ↔ b.Flagged s := by
  let inv : Invariant r :=
    { allows := fun t _ => t.assigns = false
      holds := fun c => c.Flagged s ↔ b.Flagged s
      knows := fun _ _ => True
      known := .any _
      asked := fun hway hask => hask.assigns_eq_false hway.allowed
      changed := fun hway hchange => (hchange.flagged_iff hway.allowed s).trans hway.holds }
  exact (inv.run (t := t) ht Iff.rfl).1

/-! ### The assignment pass, statement by statement -/

namespace Resolver

variable {r : Resolver}

/-- Enclosing statements are followed to the end, however far the pass may go beyond that. -/
theorem assignThrough_eq (hfirst : r.ast.ChildrenFirst) {id : NodeId} (hid : id < r.ast.size)
    {fuel fuel' : Nat} (h : id < fuel) (h' : id < fuel') (b : Bindings) :
    r.assignThrough fuel id b = r.assignThrough fuel' id b := by
  induction id using Nat.strongRecOn generalizing fuel fuel' b with
  | ind id ih =>
      obtain ⟨n, rfl⟩ := Nat.exists_eq_succ_of_ne_zero (Nat.ne_zero_of_lt h)
      obtain ⟨n', rfl⟩ := Nat.exists_eq_succ_of_ne_zero (Nat.ne_zero_of_lt h')
      have hpart : ∀ part ∈ (r.ast.node id).references, ∀ b,
          r.assignThrough n part b = r.assignThrough n' part b := by
        intro part hp b
        have hlt := hfirst id hid part hp
        exact ih part hlt (Nat.lt_trans hlt hid) (Nat.lt_of_lt_of_le hlt (Nat.le_of_lt_succ h))
          (Nat.lt_of_lt_of_le hlt (Nat.le_of_lt_succ h')) b
      rw [assignThrough, assignThrough]
      cases hnode : r.ast.node id with
      | program body =>
          refine List.foldl_ext _ _ b ?_
          intro b x hx
          exact hpart x (hnode ▸ hx) b
      | expressionStatement expression =>
          exact hpart expression (by simp [hnode, Node.references]) b
      | exportNamed declaration specifiers =>
          refine List.foldl_ext _ _ _ ?_
          intro b x hx
          exact hpart x (by simp [hnode, Node.references, hx]) b
      | functionDeclaration name => cases name <;> rfl
      | classDeclaration name body => cases name <;> rfl
      | _ => rfl

/-- Assign several nodes, one after the other. -/
def assignAll (r : Resolver) (nodes : List NodeId) (b : Bindings) : Bindings :=
  nodes.foldl (fun b n => r.assign n b) b

/-- Assigning several nodes keeps an invariant that allows each of them where it is assigned. -/
theorem holds_assignAll (inv : Invariant r) {nodes : List NodeId} {b : Bindings}
    (hb : inv.holds b) (hallows : ∀ before x after, nodes = before ++ x :: after →
      inv.allows (.assign (x + 1) x) (r.assignAll before b)) :
    inv.holds (r.assignAll nodes b) := by
  induction nodes generalizing b with
  | nil => exact hb
  | cons x rest ih =>
      have hx := (inv.run (t := .assign (x + 1) x) (hallows [] x rest rfl) hb).1
      exact ih hx fun before y after hrest => hallows (x :: before) y after (by rw [hrest]; rfl)

/-- `export` of a declaration that may be missing. -/
def exportInline (r : Resolver) (declaration : Option NodeId) (b : Bindings) : Bindings :=
  declaration.elim b fun d => r.exportDeclaration d b

section grows

variable (r)

theorem assignAll_grows (nodes : List NodeId) (b : Bindings) : b.Grows (r.assignAll nodes b) :=
  Bindings.Grows.foldl (fun b n => r.assignThrough_grows b (n + 1) n) nodes b

theorem exportInline_grows (declaration : Option NodeId) (b : Bindings) :
    b.Grows (r.exportInline declaration b) := by
  cases declaration with
  | none => exact .refl b
  | some declaration => exact r.exportDeclaration_grows b declaration

end grows

section unfold

variable (hfirst : r.ast.ChildrenFirst) {id : NodeId} (hid : id < r.ast.size)
include hfirst hid

theorem assignThrough_part {fuel : Nat} (hfuel : id ≤ fuel) {part : NodeId}
    (hpart : part ∈ (r.ast.node id).references) (b : Bindings) :
    r.assignThrough fuel part b = r.assign part b := by
  have hlt := hfirst id hid part hpart
  exact assignThrough_eq hfirst (Nat.lt_trans hlt hid) (Nat.lt_of_lt_of_le hlt hfuel)
    (Nat.lt_succ_self part) b

theorem foldl_assignThrough {fuel : Nat} (hfuel : id ≤ fuel) {parts : List NodeId}
    (hparts : ∀ x ∈ parts, x ∈ (r.ast.node id).references) (b : Bindings) :
    parts.foldl (fun b x => r.assignThrough fuel x b) b = r.assignAll parts b := by
  refine List.foldl_ext _ _ b ?_
  intro b x hx
  exact assignThrough_part hfirst hid hfuel (hparts x hx) b

theorem assign_program {body : List NodeId} (hnode : r.ast.node id = .program body)
    (b : Bindings) : r.assign id b = r.assignAll body b := by
  rw [assign, assignThrough, hnode]
  exact foldl_assignThrough hfirst hid (Nat.le_refl id) (fun x hx => hnode ▸ hx) b

theorem assign_expression {expression : NodeId}
    (hnode : r.ast.node id = .expressionStatement expression) (b : Bindings) :
    r.assign id b = r.assign expression b := by
  rw [assign, assignThrough, hnode]
  exact assignThrough_part hfirst hid (Nat.le_refl id) (by simp [hnode, Node.references]) b

theorem assign_exportNamed {declaration : Option NodeId} {specifiers : List NodeId}
    (hnode : r.ast.node id = .exportNamed declaration specifiers) (b : Bindings) :
    r.assign id b = r.assignAll specifiers (r.exportInline declaration b) := by
  have hpart : ∀ x ∈ specifiers, x ∈ (r.ast.node id).references := by
    intro x hx
    simp [hnode, Node.references, hx]
  rw [assign, assignThrough, hnode]
  cases declaration with
  | none => exact foldl_assignThrough hfirst hid (Nat.le_refl id) hpart _
  | some d => exact foldl_assignThrough hfirst hid (Nat.le_refl id) hpart _

end unfold

/-! ### Exports and visits -/

/-- The symbols that a declaration stores. -/
def storedBy (r : Resolver) (declaration : NodeId) (c : Bindings) : List SymbolId :=
  match r.ast.node declaration with
  | .variableDeclaration _ declarators => (r.bindDeclarators declarators c).1
  | _ => (r.bind maxNesting declaration (some declaration) none c).1.toList

/-- The symbols that one node flags when it is assigned in the state `c`: those that an exported
declaration stores, or the one that an exported expression denotes. -/
def exportsAt (r : Resolver) (n : NodeId) (c : Bindings) : List SymbolId :=
  match r.ast.node n with
  | .exportDefault declaration =>
      match r.bind maxNesting declaration (some declaration) none c with
      | (some s, _) => [s]
      | (none, c) => (r.resolve maxNesting declaration none {} c).1.toList
  | .exportNamed (some declaration) _ => r.storedBy declaration c
  | .exportSpecifier source => (r.resolve maxNesting source (some root) {} c).1.toList
  | _ => []

/-- Assigning a node in a state, the pass comes to a node in a state. -/
inductive Visits (r : Resolver) : NodeId → Bindings → NodeId → Bindings → Prop where
  | here {id : NodeId} {b : Bindings} : Visits r id b id b
  | statement {id x n : NodeId} {b c : Bindings} {before after : List NodeId} :
      r.ast.node id = .program (before ++ x :: after) →
      Visits r x (r.assignAll before b) n c → Visits r id b n c
  | expression {id x n : NodeId} {b c : Bindings} :
      r.ast.node id = .expressionStatement x → Visits r x b n c → Visits r id b n c
  | specifier {id x n : NodeId} {b c : Bindings} {declaration : Option NodeId}
      {before after : List NodeId} :
      r.ast.node id = .exportNamed declaration (before ++ x :: after) →
      Visits r x (r.assignAll before (r.exportInline declaration b)) n c → Visits r id b n c

theorem Visits.trans {id n m : NodeId} {b c d : Bindings} (h : r.Visits id b n c)
    (h' : r.Visits n c m d) : r.Visits id b m d := by
  induction h with
  | here => exact h'
  | statement hnode _ ih => exact .statement hnode (ih h')
  | expression hnode _ ih => exact .expression hnode (ih h')
  | specifier hnode _ ih => exact .specifier hnode (ih h')

/-- **The graph only grows from one visit to the next.** -/
theorem Visits.grows {id n : NodeId} {b c : Bindings} (h : r.Visits id b n c) : b.Grows c := by
  induction h with
  | here => exact .refl _
  | statement _ _ ih => exact (r.assignAll_grows _ _).trans ih
  | expression _ _ ih => exact ih
  | specifier _ _ ih => exact ((r.exportInline_grows _ _).trans (r.assignAll_grows _ _)).trans ih

/-- Some export that is visited from the node on denotes the symbol. -/
def Exported (r : Resolver) (id : NodeId) (b : Bindings) (s : SymbolId) : Prop :=
  ∃ n c, r.Visits id b n c ∧ s ∈ r.exportsAt n c

section exported

variable {id : NodeId} {b : Bindings} {s : SymbolId}

theorem exported_program_iff {body : List NodeId} (hnode : r.ast.node id = .program body) :
    r.Exported id b s ↔
      ∃ before x after, body = before ++ x :: after ∧ r.Exported x (r.assignAll before b) s := by
  constructor
  · rintro ⟨n, c, hvisit, hs⟩
    cases hvisit with
    | here => simp [exportsAt, hnode] at hs
    | statement h hvisit => exact ⟨_, _, _, Node.program.inj (hnode.symm.trans h), n, c, hvisit, hs⟩
    | expression h _ => cases hnode.symm.trans h
    | specifier h _ => cases hnode.symm.trans h
  · rintro ⟨before, x, after, rfl, n, c, hvisit, hs⟩
    exact ⟨n, c, .statement hnode hvisit, hs⟩

theorem exported_expression_iff {x : NodeId} (hnode : r.ast.node id = .expressionStatement x) :
    r.Exported id b s ↔ r.Exported x b s := by
  constructor
  · rintro ⟨n, c, hvisit, hs⟩
    cases hvisit with
    | here => simp [exportsAt, hnode] at hs
    | statement h _ => cases hnode.symm.trans h
    | expression h hvisit =>
        obtain rfl := Node.expressionStatement.inj (hnode.symm.trans h)
        exact ⟨n, c, hvisit, hs⟩
    | specifier h _ => cases hnode.symm.trans h
  · rintro ⟨n, c, hvisit, hs⟩
    exact ⟨n, c, .expression hnode hvisit, hs⟩

theorem exported_exportNamed_iff {declaration : Option NodeId} {specifiers : List NodeId}
    (hnode : r.ast.node id = .exportNamed declaration specifiers) :
    r.Exported id b s ↔ s ∈ r.exportsAt id b ∨
      ∃ before x after, specifiers = before ++ x :: after ∧
        r.Exported x (r.assignAll before (r.exportInline declaration b)) s := by
  constructor
  · rintro ⟨n, c, hvisit, hs⟩
    cases hvisit with
    | here => exact .inl hs
    | statement h _ => cases hnode.symm.trans h
    | expression h _ => cases hnode.symm.trans h
    | specifier h hvisit =>
        obtain ⟨rfl, hsplit⟩ := Node.exportNamed.inj (hnode.symm.trans h)
        exact .inr ⟨_, _, _, hsplit, n, c, hvisit, hs⟩
  · rintro (hs | ⟨before, x, after, rfl, n, c, hvisit, hs⟩)
    · exact ⟨id, b, .here, hs⟩
    · exact ⟨n, c, .specifier hnode hvisit, hs⟩

theorem exported_leaf_iff (hprogram : ∀ body, r.ast.node id ≠ .program body)
    (hexpression : ∀ x, r.ast.node id ≠ .expressionStatement x)
    (hnamed : ∀ declaration specifiers, r.ast.node id ≠ .exportNamed declaration specifiers) :
    r.Exported id b s ↔ s ∈ r.exportsAt id b := by
  constructor
  · rintro ⟨n, c, hvisit, hs⟩
    cases hvisit with
    | here => exact hs
    | statement h _ => exact absurd h (hprogram _)
    | expression h _ => exact absurd h (hexpression _)
    | specifier h _ => exact absurd h (hnamed _ _)
  · intro hs
    exact ⟨id, b, .here, hs⟩

end exported

/-- A specifier of a name flags what the name denotes at that point. -/
theorem exportsAt_specifier {n source : NodeId} {x : String}
    (hn : r.ast.node n = .exportSpecifier source) (hsource : r.ast.node source = .identifier x)
    (c : Bindings) : r.exportsAt n c = (c.graph.global? x).toList := by
  have hresolve : (r.resolve maxNesting source (some root) {} c).1 = c.graph.global? x := by
    rw [maxNesting, resolve, resolveNode, hsource]
    exact Option.or_self
  rw [exportsAt, hn]
  exact congrArg Option.toList hresolve

theorem flagged_resolve_iff (r : Resolver) (id : NodeId) (scope : Option SymbolId) (b : Bindings)
    (s : SymbolId) : (r.resolve maxNesting id scope {} b).2.Flagged s ↔ b.Flagged s :=
  Task.flagged_iff r (t := .resolve maxNesting id scope {}) rfl b s

/-- A bound value is not flagged by being stored. -/
theorem flagged_bind_iff (r : Resolver) (target : NodeId) (value : Option NodeId)
    (scope : Option SymbolId) (b : Bindings) (s : SymbolId) :
    (r.bind maxNesting target value scope b).2.Flagged s ↔ b.Flagged s :=
  Task.flagged_iff r (t := .bind maxNesting target value scope) rfl b s

theorem flagged_bindDeclarators_iff (r : Resolver) (declarators : List Declarator) (b : Bindings)
    (s : SymbolId) : (r.bindDeclarators declarators b).2.Flagged s ↔ b.Flagged s := by
  induction declarators generalizing b with
  | nil => exact Iff.rfl
  | cons d rest ih => exact (ih _).trans (flagged_bind_iff r d.target d.init none b s)

section flags

variable (hfirst : r.ast.ChildrenFirst)
include hfirst

/-! ### What one node flags -/

theorem flagged_exportDefault_iff {declaration : NodeId} (hd : declaration < r.ast.size)
    {n : NodeId} (hn : r.ast.node n = .exportDefault declaration) {b : Bindings} (hb : b.InBounds)
    (s : SymbolId) :
    (r.exportDefault declaration b).Flagged s ↔ b.Flagged s ∨ s ∈ r.exportsAt n b := by
  have hsame := flagged_bind_iff r declaration (some declaration) none b s
  obtain ⟨hb₁, hlt₁⟩ := bind_inBounds hfirst hb maxNesting declaration (some declaration)
    (by simp [hd]) none hb.root_lt
  rw [exportDefault, exportsAt, hn]
  dsimp only
  generalize r.bind maxNesting declaration (some declaration) none b = out at hsame hb₁ hlt₁ ⊢
  obtain ⟨found, b₁⟩ := out
  cases found with
  | some t => exact Bindings.flagged_found_iff hsame hlt₁
  | none =>
      have hsame₂ := flagged_resolve_iff r declaration none b₁ s
      obtain ⟨-, hlt₂⟩ := resolve_inBounds hfirst hb₁ maxNesting hd none hb₁.root_lt {}
      dsimp only
      generalize r.resolve maxNesting declaration none {} b₁ = out at hsame₂ hlt₂ ⊢
      obtain ⟨found, b₂⟩ := out
      rw [← hsame, ← Bindings.flagged_found_iff hsame₂ hlt₂]
      cases found with
      | none => exact Iff.rfl
      | some t =>
          have ht : t < (b₂.setProp root defaultExport t).graph.size := by
            simpa using hlt₂ t rfl
          dsimp only [Option.elim]
          rw [Bindings.flagged_markExported_iff ht, Bindings.flagged_setProp_iff,
            Bindings.flagged_markExported_iff (hlt₂ t rfl)]

theorem flagged_exportDeclaration_iff {declaration : NodeId} (hd : declaration < r.ast.size)
    {b : Bindings} (hb : b.InBounds) (s : SymbolId) :
    (r.exportDeclaration declaration b).Flagged s ↔
      b.Flagged s ∨ s ∈ r.storedBy declaration b := by
  have hfound := Bindings.flagged_found_iff
    (flagged_bind_iff r declaration (some declaration) none b s)
    (bind_inBounds hfirst hb maxNesting declaration (some declaration) (by simp [hd]) none
      hb.root_lt).2
  rw [exportDeclaration, storedBy]
  cases hnode : r.ast.node declaration with
  | variableDeclaration kind declarators =>
      dsimp only
      rw [← flagged_bindDeclarators_iff r declarators b s]
      exact Bindings.flagged_foldl_iff (bindDeclarators_inBounds hfirst hb hd hnode) s
  | _ =>
      dsimp only
      generalize r.bind maxNesting declaration (some declaration) none b = out at hfound ⊢
      obtain ⟨found, b₁⟩ := out
      cases found <;> exact hfound

theorem flagged_exportSpecifier_iff {source : NodeId} (hs : source < r.ast.size)
    {n : NodeId} (hn : r.ast.node n = .exportSpecifier source) {b : Bindings} (hb : b.InBounds)
    (s : SymbolId) :
    (r.exportSpecifier source b).Flagged s ↔ b.Flagged s ∨ s ∈ r.exportsAt n b := by
  have hfound := Bindings.flagged_found_iff (flagged_resolve_iff r source (some root) b s)
    (resolve_inBounds hfirst hb maxNesting hs (some root) hb.root_lt {}).2
  rw [exportSpecifier, exportsAt, hn]
  dsimp only
  generalize r.resolve maxNesting source (some root) {} b = out at hfound ⊢
  obtain ⟨found, b₁⟩ := out
  cases found <;> exact hfound

/-- Assigning a node that encloses no other statement flags what the node exports. -/
theorem flagged_leaf_iff {id : NodeId} (hid : id < r.ast.size)
    (hprogram : ∀ body, r.ast.node id ≠ .program body)
    (hexpression : ∀ x, r.ast.node id ≠ .expressionStatement x)
    (hnamed : ∀ declaration specifiers, r.ast.node id ≠ .exportNamed declaration specifiers)
    {b : Bindings} (hb : b.InBounds) (s : SymbolId) :
    (r.assign id b).Flagged s ↔ b.Flagged s ∨ s ∈ r.exportsAt id b := by
  have hpart : ∀ part ∈ (r.ast.node id).references, part < r.ast.size :=
    fun _ => hfirst.lt_size hid
  have hnone : ∀ {P : Prop}, (P ↔ b.Flagged s) → (P ↔ b.Flagged s ∨ s ∈ ([] : List SymbolId)) := by
    intro P h
    simpa using h
  rw [assign, assignThrough]
  cases hnode : r.ast.node id with
  | program body => exact absurd hnode (hprogram body)
  | expressionStatement x => exact absurd hnode (hexpression x)
  | exportNamed declaration specifiers => exact absurd hnode (hnamed declaration specifiers)
  | exportDefault declaration =>
      exact flagged_exportDefault_iff hfirst
        (hpart declaration (by simp [hnode, Node.references])) hnode hb s
  | exportSpecifier source =>
      exact flagged_exportSpecifier_iff hfirst
        (hpart source (by simp [hnode, Node.references])) hnode hb s
  | assignment target value =>
      rw [exportsAt, hnode]
      exact hnone (flagged_bind_iff r target (some value) none b s)
  | variableDeclaration kind declarators =>
      rw [exportsAt, hnode]
      exact hnone (flagged_bindDeclarators_iff r declarators b s)
  | functionDeclaration name =>
      rw [exportsAt, hnode]
      cases name with
      | none => exact hnone Iff.rfl
      | some name =>
          dsimp only
          split
          · exact hnone (flagged_bind_iff r name (some id) (some root) b s)
          · exact hnone Iff.rfl
  | classDeclaration name body =>
      rw [exportsAt, hnode]
      cases name with
      | none => exact hnone Iff.rfl
      | some name =>
          exact hnone (flagged_bind_iff r name (some body) (some root) b s)
  | _ =>
      rw [exportsAt, hnode]
      exact hnone Iff.rfl

/-! ### What a whole pass flags -/

theorem flagged_assignAll_iff {nodes : List NodeId} (hnodes : ∀ n ∈ nodes, n < r.ast.size)
    {s : SymbolId}
    (hassign : ∀ n ∈ nodes, ∀ b : Bindings, b.InBounds →
      ((r.assign n b).Flagged s ↔ b.Flagged s ∨ r.Exported n b s))
    {b : Bindings} (hb : b.InBounds) :
    (r.assignAll nodes b).Flagged s ↔ b.Flagged s ∨
      ∃ before x after, nodes = before ++ x :: after ∧ r.Exported x (r.assignAll before b) s := by
  induction nodes generalizing b with
  | nil => simp [assignAll]
  | cons y rest ih =>
      have hb' := assign_inBounds hfirst hb (hnodes y (List.mem_cons_self ..))
      have hrest := ih (fun n hn => hnodes n (List.mem_cons_of_mem y hn))
        (fun n hn => hassign n (List.mem_cons_of_mem y hn)) hb'
      have hall : r.assignAll (y :: rest) b = r.assignAll rest (r.assign y b) := rfl
      rw [hall, hrest, hassign y (List.mem_cons_self ..) b hb, or_assoc]
      refine or_congr Iff.rfl ?_
      constructor
      · rintro (hy | ⟨before, x, after, rfl, hx⟩)
        · exact ⟨[], y, rest, rfl, hy⟩
        · exact ⟨y :: before, x, after, rfl, hx⟩
      · rintro ⟨before, x, after, hsplit, hx⟩
        cases before with
        | nil =>
            obtain ⟨rfl, rfl⟩ := List.cons_eq_cons.1 hsplit
            exact .inl hx
        | cons z before =>
            obtain ⟨rfl, rfl⟩ := List.cons_eq_cons.1 hsplit
            exact .inr ⟨before, x, after, rfl, hx⟩

/-- An inline export flags what its declaration stores. -/
theorem flagged_exportInline_iff {id : NodeId} (hid : id < r.ast.size)
    {declaration : Option NodeId} {specifiers : List NodeId}
    (hnode : r.ast.node id = .exportNamed declaration specifiers) {b : Bindings}
    (hb : b.InBounds) (s : SymbolId) :
    (r.exportInline declaration b).Flagged s ↔ b.Flagged s ∨ s ∈ r.exportsAt id b := by
  rw [exportsAt, hnode]
  cases declaration with
  | none => simp [exportInline]
  | some d =>
      have hd : d < r.ast.size := hfirst.lt_size hid (by simp [hnode, Node.references])
      exact flagged_exportDeclaration_iff hfirst hd hb s

theorem exportInline_inBounds {id : NodeId} (hid : id < r.ast.size)
    {declaration : Option NodeId} {specifiers : List NodeId}
    (hnode : r.ast.node id = .exportNamed declaration specifiers) {b : Bindings}
    (hb : b.InBounds) : (r.exportInline declaration b).InBounds := by
  cases declaration with
  | none => exact hb
  | some d => exact exportDeclaration_inBounds hfirst hb hid hnode

/-- **Assigning a node flags exactly what the exports visited from it on denote.** -/
theorem flagged_assign_iff {id : NodeId} (hid : id < r.ast.size) {b : Bindings}
    (hb : b.InBounds) (s : SymbolId) :
    (r.assign id b).Flagged s ↔ b.Flagged s ∨ r.Exported id b s := by
  induction id using Nat.strongRecOn generalizing b with
  | ind id ih =>
      have hpart : ∀ part ∈ (r.ast.node id).references, ∀ b : Bindings, b.InBounds →
          ((r.assign part b).Flagged s ↔ b.Flagged s ∨ r.Exported part b s) :=
        fun part hp b => ih part (hfirst id hid part hp) (hfirst.lt_size hid hp)
      -- only these three kinds hand the pass on to their parts; every other node is a leaf of it
      by_cases hprogram : ∃ body, r.ast.node id = .program body
      · obtain ⟨body, hnode⟩ := hprogram
        have hbody : ∀ n ∈ body, n ∈ (r.ast.node id).references := fun n hn => hnode ▸ hn
        rw [assign_program hfirst hid hnode, exported_program_iff hnode]
        exact flagged_assignAll_iff hfirst (fun n hn => hfirst.lt_size hid (hbody n hn))
          (fun n hn => hpart n (hbody n hn)) hb
      by_cases hexpression : ∃ x, r.ast.node id = .expressionStatement x
      · obtain ⟨x, hnode⟩ := hexpression
        rw [assign_expression hfirst hid hnode, exported_expression_iff hnode]
        exact hpart x (by simp [hnode, Node.references]) b hb
      by_cases hnamed : ∃ declaration specifiers,
          r.ast.node id = .exportNamed declaration specifiers
      · obtain ⟨declaration, specifiers, hnode⟩ := hnamed
        have hspecifier : ∀ n ∈ specifiers, n ∈ (r.ast.node id).references := by
          intro n hn
          simp [hnode, Node.references, hn]
        have hb' := exportInline_inBounds hfirst hid hnode hb
        rw [assign_exportNamed hfirst hid hnode, exported_exportNamed_iff hnode, ← or_assoc,
          ← flagged_exportInline_iff hfirst hid hnode hb s]
        exact flagged_assignAll_iff hfirst (fun n hn => hfirst.lt_size hid (hspecifier n hn))
          (fun n hn => hpart n (hspecifier n hn)) hb'
      have hnot₁ : ∀ body, r.ast.node id ≠ .program body := fun body h => hprogram ⟨body, h⟩
      have hnot₂ : ∀ x, r.ast.node id ≠ .expressionStatement x := fun x h => hexpression ⟨x, h⟩
      have hnot₃ : ∀ d l, r.ast.node id ≠ .exportNamed d l := fun d l h => hnamed ⟨d, l, h⟩
      rw [exported_leaf_iff hnot₁ hnot₂ hnot₃]
      exact flagged_leaf_iff hfirst hid hnot₁ hnot₂ hnot₃ hb s

end flags

end Resolver

/-! ### A whole module -/

namespace Analysis

/-- The state in which the assignment pass over a module starts. -/
def declared (ast : Ast) (options : AnalysisOptions) : Bindings :=
  Resolver.declare { ast } ast.program (start options)

/-- The assignment pass over a module comes to the node in the state. -/
def Visits (ast : Ast) (options : AnalysisOptions) (n : NodeId) (c : Bindings) : Prop :=
  Resolver.Visits { ast } ast.program (declared ast options) n c

theorem hoisting_start (ast : Ast) (options : AnalysisOptions) : (start options).Hoisting ast :=
  (Checked.seed_hoisting ast options).ends (Run.hoisting_fresh ast)

theorem not_flagged_start (options : AnalysisOptions) (s : SymbolId) :
    ¬ (start options).Flagged s := by
  have hseed := Checked.seed_follows (I := fun b => ¬ b.Flagged s)
    (fun b hb hflag => hb ((Bindings.flagged_alloc_iff rfl s).1 hflag))
    (fun b _ _ _ hb _ hflag => hb ((Bindings.flagged_setProp_iff s).1 hflag))
  have hfresh : ¬ Run.fresh.now.Flagged s := by
    rw [Bindings.Flagged, Run.fresh, SymbolGraph.get_empty]
    exact Bool.false_ne_true
  exact (hseed hfresh options).ends hfresh

theorem not_flagged_declared (ast : Ast) (options : AnalysisOptions) (s : SymbolId) :
    ¬ (declared ast options).Flagged s :=
  fun hflag => not_flagged_start options s
    ((Task.flagged_iff { ast } (t := .declare (ast.program + 1) ast.program) rfl _ s).1 hflag)

theorem inBounds_declared {ast : Ast} (options : AnalysisOptions) (hfirst : ast.ChildrenFirst)
    (hprogram : ast.program < ast.size) : (declared ast options).InBounds :=
  Resolver.declare_inBounds (r := { ast }) hfirst (hoisting_start ast options).inBounds hprogram

/-- **A symbol is flagged at the end exactly if an export denoted it when the pass came to that
export.**  In particular a name whose last symbol no export has denoted, because it was given its
value only after the export, ends with an unflagged symbol; and a specifier denotes what its name
is bound to at that point. -/
theorem exported_iff_visited_export (ast : Ast) (options : AnalysisOptions)
    (hfirst : ast.ChildrenFirst) (hprogram : ast.program < ast.size) :
    (∀ s, ((ofAst ast options).graph.get s).exported = true ↔
      ∃ n c, Visits ast options n c ∧ s ∈ Resolver.exportsAt { ast } n c) ∧
    ∀ n c source x, Visits ast options n c → ast.node n = .exportSpecifier source →
      ast.node source = .identifier x →
      Resolver.exportsAt { ast } n c = (c.graph.global? x).toList := by
  refine ⟨?_, fun n c source x _ hn hsource => Resolver.exportsAt_specifier hn hsource c⟩
  intro s
  calc ((ofAst ast options).graph.get s).exported = true
      ↔ (declared ast options).Flagged s ∨
          Resolver.Exported { ast } ast.program (declared ast options) s :=
        Resolver.flagged_assign_iff (r := { ast }) hfirst hprogram
          (inBounds_declared options hfirst hprogram) s
    _ ↔ ∃ n c, Visits ast options n c ∧ s ∈ Resolver.exportsAt { ast } n c :=
        or_iff_right (not_flagged_declared ast options s)

/-- The module `export { f }; const f = () => {};`. -/
def exportBeforeValue : Ast where
  nodes := ([.identifier "f", .exportSpecifier 0, .exportNamed none [1], .identifier "f",
    .arrowFunction, .variableDeclaration .const [⟨3, some 4⟩], .program [2, 5]].map
      fun n => ⟨n, ⟨1, 1⟩⟩).toArray
  program := 6

/-- The export flags the placeholder of `f`; no export has denoted the function that `f` is bound
to in the end, and it stays unflagged. -/
theorem exportBeforeValue_unflagged :
    exportBeforeValue.ChildrenFirst ∧
      (ofAst exportBeforeValue {}).graph.global? "f" = some 4 ∧
      ((ofAst exportBeforeValue {}).graph.get 4).exported = false ∧
      ((ofAst exportBeforeValue {}).graph.get 3).exported = true ∧
      ¬ ∃ n c, Visits exportBeforeValue {} n c ∧
        4 ∈ Resolver.exportsAt { ast := exportBeforeValue } n c := by
  have hfirst : exportBeforeValue.ChildrenFirst := by
    unfold Ast.ChildrenFirst
    decide
  have hflags := (exported_iff_visited_export exportBeforeValue {} hfirst (by decide)).1
  have hunflagged : ((ofAst exportBeforeValue {}).graph.get 4).exported = false := by decide +kernel
  refine ⟨hfirst, by decide +kernel, hunflagged, by decide +kernel, ?_⟩
  rw [← hflags 4, hunflagged]
  exact Bool.false_ne_true

end Analysis

end ExportSurface

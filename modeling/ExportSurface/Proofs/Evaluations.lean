/-
Which expressions are evaluated while a module is bound, and in which states.

The passes bind targets, binding a target resolves some of its parts, and resolving a node resolves
some of its parts in turn.  Every such call happens in a state that the calls before it have left.
The calls are described here one level at a time, beside the resolver, and it is shown that none is
missing: whatever a task of the run asks for is described as well.

A run goes on where a call has ended, and states only grow.  So what a call has reported is reported
in the end, and the diagnostics of a whole run tell something about every single call in it.

Main definitions:

* `Resolver.Call` — a node to be resolved in a scope and a state;
* `Resolver.BindCalls`, `Resolver.Calls` — the calls that binding a target and resolving a node
  make;
* `Resolver.ComesTo`, `Analysis.Binds` — the declarators that the declaration pass comes to, and
  what either pass binds;
* `Analysis.Evaluates` — the calls of a whole run;
* `Analysis.Happens` — all that is performed in a run.

Main results:

* `Analysis.Happens.asked` — **nothing else is performed**;
* `Analysis.Happens.start_grows` — **whatever is bound is bound in a state grown from the first**;
* `Analysis.Binds.grows`, `Analysis.Evaluates.grows` — **a run goes on where a call ends**.
-/

import ExportSurface.Proofs.Channels

set_option autoImplicit false

namespace ExportSurface

open SymbolGraph (root)

namespace Resolver

/-! ### Calls of one level -/

/-- A node to be resolved in a scope and a state. -/
structure Call where
  node : NodeId
  scope : Option SymbolId
  state : Bindings

namespace Call

/-- What a resolver answers, and the state that it leaves. -/
def run (c : Call) (recur : Resolve) : Option SymbolId × Bindings :=
  recur c.node c.scope {} c.state

/-- The state in which the first entries of an object literal are set. -/
def withEntries (c : Call) (ast : Ast) (recur : Resolve) (entries : List Entry) : Bindings :=
  addProperties { ast } recur c.scope {} c.state.graph.size entries
    (c.state.alloc (.object (some c.node))).2

/-- The value of an entry of an object literal, after the entries before it. -/
def value (c : Call) (ast : Ast) (recur : Resolve) (before : List Entry) (entry : Entry) : Call :=
  ⟨entry.value, c.scope, c.withEntries ast recur before⟩

end Call

/-- The calls that binding a target makes. -/
inductive BindCalls (ast : Ast) (recur : Resolve) (target : NodeId) (value : Option NodeId)
    (scope : Option SymbolId) (b : Bindings) : Call → Prop where
  | classBody {id body : NodeId} {name : String} :
      ast.node target = .classDeclaration (some id) body → ast.node id = .identifier name →
      BindCalls ast recur target value scope b ⟨body, some root, b⟩
  | function {id : NodeId} {name : String} :
      ast.node target = .functionDeclaration (some id) → ast.node id = .identifier name →
      BindCalls ast recur target value scope b ⟨target, some root, b⟩
  | named {name : String} {v : NodeId} :
      ast.node target = .identifier name → value = some v →
      BindCalls ast recur target value scope b ⟨v, some (scope.getD root), b⟩
  | base {base property : NodeId} {computed : Bool} :
      ast.node target = .member base property computed →
      BindCalls ast recur target value scope b ⟨base, some (scope.getD root), b⟩
  | key {base property : NodeId} {computed : Bool} :
      ast.node target = .member base property computed →
      ast.isDynamicKey property computed = true →
      BindCalls ast recur target value scope b
        ⟨property, some (scope.getD root), (recur base (some (scope.getD root)) {} b).2⟩
  -- The value of a member access is resolved only if there is something to set it on.
  | member {base property v : NodeId} {computed : Bool} {owner : SymbolId} {key : String}
      {b₁ b₂ : Bindings} :
      ast.node target = .member base property computed →
      recur base (some (scope.getD root)) {} b = (some owner, b₁) →
      (b₁.graph.get owner).hasMembers = true →
      memberKey? { ast } recur property computed (some (scope.getD root)) b₁ = (some key, b₂) →
      value = some v →
      BindCalls ast recur target value scope b ⟨v, some (scope.getD root), b₂⟩

/-- The calls that resolving a node makes. -/
inductive Calls (ast : Ast) (recur : Resolve) (c : Call) : Call → Prop where
  | base {base property : NodeId} {computed : Bool} :
      ast.node c.node = .member base property computed →
      Calls ast recur c ⟨base, c.scope, c.state⟩
  | key {base property : NodeId} {computed : Bool} :
      ast.node c.node = .member base property computed →
      ast.isDynamicKey property computed = true →
      Calls ast recur c ⟨property, c.scope, (recur base c.scope {} c.state).2⟩
  | assignment {target value : NodeId} {c' : Call} :
      ast.node c.node = .assignment target value →
      BindCalls ast recur target (some value) c.scope c.state c' → Calls ast recur c c'
  | entry {before after : List Entry} {entry : Entry} {key : String} :
      ast.node c.node = .object (before ++ entry :: after) → ast.entryKey? entry = some key →
      Calls ast recur c (c.value ast recur before entry)

section level

variable {ast : Ast} {recur : Resolve} {target : NodeId} {value : Option NodeId}
  {scope : Option SymbolId} {b : Bindings} {c c' : Call}

/-- The value of an object literal, and the state in which all its entries are set. -/
theorem Call.run_object {properties : List Entry} (hnode : ast.node c.node = .object properties) :
    c.run (resolveNode { ast } recur) =
      (some c.state.graph.size, c.withEntries ast recur properties) := by
  rw [run, resolveNode, hnode]
  rfl

theorem Call.withEntries_append (before after : List Entry) :
    c.withEntries ast recur (before ++ after) =
      addProperties { ast } recur c.scope {} c.state.graph.size after
        (c.withEntries ast recur before) :=
  List.foldl_append ..

/-- One more entry: its value is resolved and set, if its key is static. -/
theorem Call.withEntries_concat (before : List Entry) (entry : Entry) :
    c.withEntries ast recur (before ++ [entry]) =
      match ast.entryKey? entry with
      | some key =>
          match (c.value ast recur before entry).run recur with
          | (some s, b) => b.setProp c.state.graph.size key s
          | (none, b) => b
      | none => c.withEntries ast recur before :=
  withEntries_append ..

section grows

variable {levels : Nat}

/-! ### The states of calls -/

theorem BindCalls.state_grows (h : BindCalls ast (resolve { ast } levels) target value scope b c) :
    b.Grows c.state := by
  cases h with
  | key _ _ => exact resolve_grows ..
  | @member base property v computed owner key b₁ b₂ _ hbase _ hkey _ =>
      have hresolve := resolve_grows { ast } b levels base (some (scope.getD root)) {}
      have hmember := memberKey?_grows { ast } b₁ levels property computed (some (scope.getD root))
      rw [hbase] at hresolve
      rw [hkey] at hmember
      exact hresolve.trans hmember
  | _ => exact .refl b

theorem Calls.state_grows (h : Calls ast (resolve { ast } levels) c c') :
    c.state.Grows c'.state := by
  cases h with
  | base _ => exact .refl _
  | key _ _ => exact resolve_grows ..
  | assignment _ hcall => exact hcall.state_grows
  | entry _ _ => exact (Bindings.Grows.alloc ..).trans (addProperties_grows ..)

/-! ### What a call leaves -/

/-- After a key that is resolved, the state is the one that resolving it leaves. -/
theorem memberKey?_snd {property : NodeId} {computed : Bool}
    (hdynamic : ast.isDynamicKey property computed = true) (scope : Option SymbolId)
    (b : Bindings) :
    (memberKey? { ast } recur property computed scope b).2 = (recur property scope {} b).2 := by
  rw [memberKey?_eq_match, keyOptions?, if_pos hdynamic]
  exact snd_resolvedKey? ..

/-- A member access, after its base and its key. -/
theorem resolveMember_rest_grows (r : Resolver) (node base property : NodeId) (computed : Bool)
    (scope : Option SymbolId) (options : ResolveOptions) (b : Bindings) :
    (r.memberKey? recur property computed scope (recur base scope options b).2).2.Grows
      (r.resolveMember recur node base property computed scope options b).2 := by
  rw [resolveMember]
  dsimp only
  split
  · split
    · exact .refl _
    · split
      · exact (Bindings.Grows.alloc _ _).trans (.setProp ..)
      · exact .report ..
  · exact .report ..

theorem bindName_grows (id : NodeId) (name : String) (v : NodeId) (scope : SymbolId)
    (b : Bindings) :
    (recur v (some scope) {} b).2.Grows (bindName recur id name (some v) scope b).2 := by
  rw [bindName]
  split
  · next hout =>
      rw [hout]
      exact .setProp ..
  · next hout =>
      rw [hout]
      exact .report ..

/-- Storing at a member access, after its base and its key. -/
theorem bindMember_rest_grows (r : Resolver) (target base property : NodeId) (computed : Bool)
    (value : Option NodeId) (scope : SymbolId) (b : Bindings) :
    (r.memberKey? (r.resolve levels) property computed (some scope)
      (r.resolve levels base (some scope) {} b).2).2.Grows
      (r.bindMember (r.resolve levels) target base property computed value scope b).2 := by
  rw [bindMember]
  dsimp only
  split
  · cases value with
    | none => exact .report ..
    | some v =>
        dsimp only
        split
        · exact (r.resolve_grows _ levels v (some scope) {}).trans (.setProp ..)
        · exact (r.resolve_grows _ levels v (some scope) {}).trans (.report ..)
  · exact .report ..

/-- Binding goes on where its calls end. -/
theorem BindCalls.grows (h : BindCalls ast (resolve { ast } levels) target value scope b c) :
    (c.run (resolve { ast } levels)).2.Grows (bind { ast } levels target value scope b).2 := by
  rw [bind, bindWith]
  cases h with
  | classBody hnode hid =>
      rw [hnode]
      dsimp only
      rw [hid]
      exact bindName_grows ..
  | function hnode hid =>
      rw [hnode]
      dsimp only
      rw [hid]
      exact bindName_grows ..
  | named hnode hv =>
      rw [hnode, hv]
      exact bindName_grows ..
  -- After the base come the key and the rest; after a key that is resolved, only the rest.
  | base hnode =>
      rw [hnode]
      exact (memberKey?_grows _ _ levels _ _ _).trans (bindMember_rest_grows ..)
  | key hnode hdynamic =>
      rw [hnode, Call.run, ← memberKey?_snd hdynamic]
      exact bindMember_rest_grows ..
  | member hnode hbase hmembers hkey hv =>
      rw [hnode, hv]
      dsimp only
      rw [bindMember, hbase]
      dsimp only
      rw [hkey, Option.filter_some, if_pos hmembers]
      dsimp only
      split
      · exact .setProp ..
      · exact .report ..

/-- So does resolving. -/
theorem Calls.grows (h : Calls ast (resolve { ast } levels) c c') :
    (c'.run (resolve { ast } levels)).2.Grows (c.run (resolve { ast } (levels + 1))).2 := by
  cases h with
  | base hnode =>
      rw [Call.run, Call.run, resolve, resolveNode, hnode]
      exact (memberKey?_grows _ _ levels _ _ _).trans (resolveMember_rest_grows ..)
  | key hnode hdynamic =>
      rw [Call.run, Call.run, resolve, resolveNode, hnode, ← memberKey?_snd hdynamic]
      exact resolveMember_rest_grows ..
  | assignment hnode hcall =>
      rw [Call.run, Call.run, resolve, resolveNode, hnode]
      exact hcall.grows
  | @entry before after entry key hnode hkey =>
      -- The entry is set where its call has ended, and the entries after it follow.
      have hset : ((c.value ast (resolve { ast } levels) before entry).run
          (resolve { ast } levels)).2.Grows
          (c.withEntries ast (resolve { ast } levels) (before ++ [entry])) := by
        rw [Call.withEntries_concat, hkey]
        dsimp only
        split
        · next hout =>
            rw [hout]
            exact .setProp ..
        · next hout =>
            rw [hout]
            exact .refl _
      rw [resolve, Call.run_object hnode, ← List.singleton_append, ← List.append_assoc,
        Call.withEntries_append]
      exact hset.trans (addProperties_grows _ _ levels _ _ _ after)

end grows

end level

/-! ### The passes -/

section passes

variable (r : Resolver)

/-- One declarator of several. -/
theorem bindDeclarators_grows_of_mem (before : List Declarator) (d : Declarator)
    (after : List Declarator) (b : Bindings) :
    (r.bind maxNesting d.target d.init none (r.bindDeclarators before b).2).2.Grows
      (r.bindDeclarators (before ++ d :: after) b).2 := by
  induction before generalizing b with
  | nil => exact r.bindDeclarators_grows _ after
  | cons e before ih => exact ih _

/-- The value of a default export that is bound to no name. -/
theorem exportDefault_grows_of_none {x : NodeId} {b b' : Bindings}
    (hout : r.bind maxNesting x (some x) none b = (none, b')) :
    (r.resolve maxNesting x none {} b').2.Grows (r.exportDefault x b) := by
  rw [exportDefault, hout]
  dsimp only
  split
  · next hvalue =>
      rw [hvalue]
      exact (Bindings.Grows.setProp ..).trans (.markExported ..)
  · next hvalue =>
      rw [hvalue]
      exact .refl _

theorem exportDefault_grows (x : NodeId) (b : Bindings) :
    (r.bind maxNesting x (some x) none b).2.Grows (r.exportDefault x b) := by
  rcases hout : r.bind maxNesting x (some x) none b with ⟨found, b'⟩
  cases found with
  | none =>
      exact (r.resolve_grows b' maxNesting x none {}).trans (r.exportDefault_grows_of_none hout)
  | some s =>
      rw [exportDefault, hout]
      exact .markExported ..

theorem exportSpecifier_grows (source : NodeId) (b : Bindings) :
    (r.resolve maxNesting source (some root) {} b).2.Grows (r.exportSpecifier source b) := by
  rw [exportSpecifier]
  split
  · next hout =>
      rw [hout]
      exact .markExported ..
  · next hout =>
      rw [hout]
      exact .report ..

/-- One statement of several. -/
theorem assignAll_grows_of_mem (before : List NodeId) (x : NodeId) (after : List NodeId)
    (b : Bindings) :
    (r.assign x (r.assignAll before b)).Grows (r.assignAll (before ++ x :: after) b) := by
  have hsplit : r.assignAll (before ++ x :: after) b =
      r.assignAll after (r.assign x (r.assignAll before b)) := List.foldl_append ..
  rw [hsplit]
  exact r.assignAll_grows after _

variable {r}

/-- The pass goes on where a visited node is through. -/
theorem Visits.assign_grows (hfirst : r.ast.ChildrenFirst) {id n : NodeId} {b c : Bindings}
    (h : r.Visits id b n c) (hid : id < r.ast.size) :
    n < r.ast.size ∧ (r.assign n c).Grows (r.assign id b) := by
  induction h with
  | here => exact ⟨hid, .refl _⟩
  | statement hnode _ ih =>
      obtain ⟨hn, hvisit⟩ := ih (hfirst.lt_size hid (by simp [hnode, Node.references]))
      rw [assign_program hfirst hid hnode]
      exact ⟨hn, hvisit.trans (r.assignAll_grows_of_mem ..)⟩
  | expression hnode _ ih =>
      obtain ⟨hn, hvisit⟩ := ih (hfirst.lt_size hid (by simp [hnode, Node.references]))
      rw [assign_expression hfirst hid hnode]
      exact ⟨hn, hvisit⟩
  | specifier hnode _ ih =>
      obtain ⟨hn, hvisit⟩ := ih (hfirst.lt_size hid (by simp [hnode, Node.references]))
      rw [assign_exportNamed hfirst hid hnode]
      exact ⟨hn, hvisit.trans (r.assignAll_grows_of_mem ..)⟩

end passes

/-- The declaration pass, through at most `fuel` enclosing statements, comes from a node in a state
to a declarator in a state. -/
inductive ComesTo (ast : Ast) : Nat → NodeId → Bindings → Declarator → Bindings → Prop where
  | statement {fuel : Nat} {id x : NodeId} {b c : Bindings} {d : Declarator}
      {before after : List NodeId} :
      ast.node id = .program (before ++ x :: after) →
      ComesTo ast fuel x (before.foldl (fun b y => declareThrough { ast } fuel y b) b) d c →
      ComesTo ast (fuel + 1) id b d c
  | expression {fuel : Nat} {id x : NodeId} {b c : Bindings} {d : Declarator} :
      ast.node id = .expressionStatement x → ComesTo ast fuel x b d c →
      ComesTo ast (fuel + 1) id b d c
  | exported {fuel : Nat} {id x : NodeId} {b c : Bindings} {d : Declarator}
      {specifiers : List NodeId} :
      ast.node id = .exportNamed (some x) specifiers → ComesTo ast fuel x b d c →
      ComesTo ast (fuel + 1) id b d c
  | declarator {fuel : Nat} {id : NodeId} {b : Bindings} {d : Declarator}
      {kind : DeclarationKind} {before after : List Declarator} :
      ast.node id = .variableDeclaration kind (before ++ d :: after) →
      ComesTo ast (fuel + 1) id b d (before.foldl (declareVariable { ast } kind) b)

theorem ComesTo.state_grows {ast : Ast} {fuel : Nat} {id : NodeId} {b c : Bindings}
    {d : Declarator} (h : ComesTo ast fuel id b d c) : b.Grows c := by
  induction h with
  | statement _ _ ih =>
      exact (Bindings.Grows.foldl (fun b y => declareThrough_grows _ b _ y) _ _).trans ih
  | expression _ _ ih | exported _ _ ih => exact ih
  | declarator _ => exact Bindings.Grows.foldl (fun b e => declareVariable_grows _ b _ e) _ _

theorem bind_grows_declareVariable (r : Resolver) (kind : DeclarationKind) (d : Declarator)
    (b : Bindings) :
    (r.bind maxNesting d.target none (some root) b).2.Grows (r.declareVariable kind b d) := by
  rw [declareVariable]
  dsimp only
  split
  · split
    · exact .setProp ..
    · exact .refl _
  · exact .refl _

/-- The pass goes on where a declared variable is bound. -/
theorem ComesTo.grows {ast : Ast} {fuel : Nat} {id : NodeId} {b c : Bindings} {d : Declarator}
    (h : ComesTo ast fuel id b d c) :
    (bind { ast } maxNesting d.target none (some root) c).2.Grows
      (declareThrough { ast } fuel id b) := by
  induction h with
  | statement hnode _ ih =>
      rw [declareThrough, hnode]
      dsimp only
      rw [List.foldl_append]
      exact ih.trans (Bindings.Grows.foldl (fun b y => declareThrough_grows _ b _ y) _ _)
  | expression hnode _ ih =>
      rw [declareThrough, hnode]
      exact ih
  | exported hnode _ ih =>
      rw [declareThrough, hnode]
      exact ih
  | declarator hnode =>
      rw [declareThrough, hnode]
      dsimp only
      rw [List.foldl_append]
      exact (bind_grows_declareVariable ..).trans
        (Bindings.Grows.foldl (fun b e => declareVariable_grows _ b _ e) _ _)

end Resolver

/-! ### A whole run -/

namespace Analysis

open Resolver (Call BindCalls Calls ComesTo)

/-- What either pass binds: a target, a value, a scope and a state. -/
inductive Binds (ast : Ast) (options : AnalysisOptions) :
    NodeId → Option NodeId → Option SymbolId → Bindings → Prop where
  /-- A declared variable, before any value is stored. -/
  | hoisted {d : Declarator} {c : Bindings} :
      ComesTo ast (ast.program + 1) ast.program (start options) d c →
      Binds ast options d.target none (some root) c
  | assignment {n target value : NodeId} {c : Bindings} :
      Visits ast options n c → ast.node n = .assignment target value →
      Binds ast options target (some value) none c
  | declarator {n : NodeId} {kind : DeclarationKind} {before after : List Declarator}
      {d : Declarator} {c : Bindings} :
      Visits ast options n c → ast.node n = .variableDeclaration kind (before ++ d :: after) →
      Binds ast options d.target d.init none (Resolver.bindDeclarators { ast } before c).2
  | exportedDeclarator {n x : NodeId} {specifiers : List NodeId} {kind : DeclarationKind}
      {before after : List Declarator} {d : Declarator} {c : Bindings} :
      Visits ast options n c → ast.node n = .exportNamed (some x) specifiers →
      ast.node x = .variableDeclaration kind (before ++ d :: after) →
      Binds ast options d.target d.init none (Resolver.bindDeclarators { ast } before c).2
  | exported {n x : NodeId} {specifiers : List NodeId} {c : Bindings} :
      Visits ast options n c → ast.node n = .exportNamed (some x) specifiers →
      (∀ kind declarators, ast.node x ≠ .variableDeclaration kind declarators) →
      Binds ast options x (some x) none c
  | exportedDefault {n x : NodeId} {c : Bindings} :
      Visits ast options n c → ast.node n = .exportDefault x →
      Binds ast options x (some x) none c
  | functionDeclaration {n id : NodeId} {c : Bindings} :
      Visits ast options n c → ast.node n = .functionDeclaration (some id) →
      (ast.identifierName? id).isSome = true → Binds ast options id (some n) (some root) c
  | classDeclaration {n id body : NodeId} {c : Bindings} :
      Visits ast options n c → ast.node n = .classDeclaration (some id) body →
      Binds ast options id (some body) (some root) c

/-- The calls of a run, each with the number of levels that it may go down. -/
inductive Evaluates (ast : Ast) (options : AnalysisOptions) : Nat → Call → Prop where
  | bound {target : NodeId} {value : Option NodeId} {scope : Option SymbolId} {b : Bindings}
      {c : Call} :
      Binds ast options target value scope b →
      BindCalls ast (Resolver.resolve { ast } maxNesting) target value scope b c →
      Evaluates ast options maxNesting c
  /-- A default export that is bound to no name. -/
  | exportedDefault {n x : NodeId} {b b' : Bindings} :
      Visits ast options n b → ast.node n = .exportDefault x →
      Resolver.bind { ast } maxNesting x (some x) none b = (none, b') →
      Evaluates ast options maxNesting ⟨x, none, b'⟩
  | specifier {n source : NodeId} {b : Bindings} :
      Visits ast options n b → ast.node n = .exportSpecifier source →
      Evaluates ast options maxNesting ⟨source, some root, b⟩
  | part {levels : Nat} {c c' : Call} :
      Evaluates ast options (levels + 1) c → Calls ast (Resolver.resolve { ast } levels) c c' →
      Evaluates ast options levels c'

/-! ### Nothing else is performed -/

/-- What is performed in a run: what is evaluated, what is bound by the passes or by an assignment
that is evaluated, and both passes themselves. -/
inductive Happens (ast : Ast) (options : AnalysisOptions) : Task → Bindings → Prop where
  | evaluated {levels : Nat} {id : NodeId} {scope : Option SymbolId} {b : Bindings} :
      Evaluates ast options levels ⟨id, scope, b⟩ →
      Happens ast options (.resolve levels id scope {}) b
  | bound {target : NodeId} {value : Option NodeId} {scope : Option SymbolId} {b : Bindings} :
      Binds ast options target value scope b →
      Happens ast options (.bind maxNesting target value scope) b
  | assigned {levels : Nat} {id target value : NodeId} {scope : Option SymbolId} {b : Bindings} :
      Evaluates ast options (levels + 1) ⟨id, scope, b⟩ →
      ast.node id = .assignment target value →
      Happens ast options (.bind levels target (some value) scope) b
  | declaring {fuel : Nat} {id : NodeId} {b : Bindings} :
      (∀ d c, ComesTo ast fuel id b d c →
        ComesTo ast (ast.program + 1) ast.program (start options) d c) →
      Happens ast options (.declare fuel id) b
  | assigning {fuel : Nat} {id : NodeId} {b : Bindings} : id < fuel → Visits ast options id b →
      Happens ast options (.assign fuel id) b

namespace Happens

variable {ast : Ast} {options : AnalysisOptions} {t t' : Task} {b₀ b : Bindings}

/-- The calls of what is bound are evaluated. -/
theorem evaluates {levels : Nat} {target : NodeId} {value : Option NodeId}
    {scope : Option SymbolId} {c : Call}
    (h : Happens ast options (.bind levels target value scope) b)
    (hcall : BindCalls ast (Resolver.resolve { ast } levels) target value scope b c) :
    Evaluates ast options levels c := by
  cases h with
  | bound hbinds => exact .bound hbinds hcall
  | assigned hc hnode => exact .part hc (.assignment hnode hcall)

/-- **Nothing else is performed**: whatever one of these tasks asks for is one of them. -/
theorem asked (hfirst : ast.ChildrenFirst) (h : Happens ast options t b₀)
    (hask : Asks { ast } b₀ t t' b) : Happens ast options t' b := by
  cases hask with
  | base hnode =>
      cases h with
      | evaluated hc => exact .evaluated (.part hc (.base hnode))
  | key hnode hkey =>
      obtain ⟨rfl, hdynamic⟩ := Resolver.keyOptions?_direct rfl hkey
      cases h with
      | evaluated hc => exact .evaluated (.part hc (.key hnode hdynamic))
  | assignment hnode =>
      cases h with
      | evaluated hc => exact .assigned hc hnode
  | entry hnode hkey =>
      cases h with
      | evaluated hc => exact .evaluated (.part hc (.entry hnode hkey))
  | classBody hnode hid => exact .evaluated (h.evaluates (.classBody hnode hid))
  | function hnode hid => exact .evaluated (h.evaluates (.function hnode hid))
  | named hnode => exact .evaluated (h.evaluates (.named hnode rfl))
  | targetBase hnode => exact .evaluated (h.evaluates (.base hnode))
  | targetKey hnode hkey =>
      obtain ⟨rfl, hdynamic⟩ := Resolver.keyOptions?_direct rfl hkey
      exact .evaluated (h.evaluates (.key hnode hdynamic))
  | member hnode hbase hmembers hkey =>
      exact .evaluated (h.evaluates (.member hnode hbase hmembers hkey rfl))
  | declareStatement hnode =>
      cases h with
      | declaring hcomes => exact .declaring fun d c hc => hcomes d c (.statement hnode hc)
  | declareExpression hnode =>
      cases h with
      | declaring hcomes => exact .declaring fun d c hc => hcomes d c (.expression hnode hc)
  | declareExported hnode =>
      cases h with
      | declaring hcomes => exact .declaring fun d c hc => hcomes d c (.exported hnode hc)
  | hoisted hnode =>
      cases h with
      | declaring hcomes => exact .bound (.hoisted (hcomes _ _ (.declarator hnode)))
  | @statement fuel id x before after hnode =>
      cases h with
      | assigning hlt hvisits =>
          have hid : id < ast.size := Ast.lt_size_of_node_ne (by simp [hnode])
          have hparts : ∀ y ∈ before ++ x :: after, y ∈ (ast.node id).references :=
            fun y hy => hnode ▸ hy
          rw [Resolver.foldl_assignThrough (r := { ast }) hfirst hid (Nat.le_of_lt_succ hlt)
            fun y hy => hparts y (List.mem_append_left _ hy)]
          refine .assigning ?_ (hvisits.trans (.statement hnode .here))
          exact Nat.lt_of_lt_of_le (hfirst id hid x (hparts x (by simp))) (Nat.le_of_lt_succ hlt)
  | @expression fuel id x hnode =>
      cases h with
      | assigning hlt hvisits =>
          have hid : id < ast.size := Ast.lt_size_of_node_ne (by simp [hnode])
          refine .assigning ?_ (hvisits.trans (.expression hnode .here))
          exact Nat.lt_of_lt_of_le (hfirst id hid x (by simp [hnode, Node.references]))
            (Nat.le_of_lt_succ hlt)
  | stored hnode =>
      cases h with
      | assigning _ hvisits => exact .bound (.assignment hvisits hnode)
  | declarator hnode =>
      cases h with
      | assigning _ hvisits => exact .bound (.declarator hvisits hnode)
  | functionDeclaration hnode hname =>
      cases h with
      | assigning _ hvisits => exact .bound (.functionDeclaration hvisits hnode hname)
  | classDeclaration hnode =>
      cases h with
      | assigning _ hvisits => exact .bound (.classDeclaration hvisits hnode)
  | exportedDefault hnode =>
      cases h with
      | assigning _ hvisits => exact .bound (.exportedDefault hvisits hnode)
  | defaultValue hnode hout =>
      cases h with
      | assigning _ hvisits => exact .evaluated (.exportedDefault hvisits hnode hout)
  | exportedDeclarator hnode hx =>
      cases h with
      | assigning _ hvisits => exact .bound (.exportedDeclarator hvisits hnode hx)
  | exported hnode hx =>
      cases h with
      | assigning _ hvisits => exact .bound (.exported hvisits hnode hx)
  | @specifier fuel id x declaration before after hnode =>
      cases h with
      | assigning hlt hvisits =>
          have hid : id < ast.size := Ast.lt_size_of_node_ne (by simp [hnode])
          have hparts : ∀ y ∈ before ++ x :: after, y ∈ (ast.node id).references := by
            intro y hy
            rw [hnode]
            exact List.mem_append_right _ hy
          rw [Resolver.foldl_assignThrough (r := { ast }) hfirst hid (Nat.le_of_lt_succ hlt)
            fun y hy => hparts y (List.mem_append_left _ hy)]
          refine .assigning ?_ (hvisits.trans (.specifier hnode .here))
          exact Nat.lt_of_lt_of_le (hfirst id hid x (hparts x (by simp))) (Nat.le_of_lt_succ hlt)
  | source hnode =>
      cases h with
      | assigning _ hvisits => exact .evaluated (.specifier hvisits hnode)

end Happens

/-! ### What is there from the start -/

section start

variable {ast : Ast} {options : AnalysisOptions}

theorem Visits.start_grows {n : NodeId} {c : Bindings} (h : Visits ast options n c) :
    (start options).Grows c :=
  (Resolver.declareThrough_grows ..).trans (Resolver.Visits.grows h)

theorem Binds.start_grows {target : NodeId} {value : Option NodeId} {scope : Option SymbolId}
    {b : Bindings} (h : Binds ast options target value scope b) : (start options).Grows b := by
  cases h with
  | hoisted hd => exact hd.state_grows
  | declarator hvisit _ | exportedDeclarator hvisit _ _ =>
      exact hvisit.start_grows.trans (Resolver.bindDeclarators_grows ..)
  | assignment hvisit _ | exported hvisit _ _ | exportedDefault hvisit _
  | functionDeclaration hvisit _ _ | classDeclaration hvisit _ => exact hvisit.start_grows

theorem Evaluates.start_grows {levels : Nat} {c : Call} (h : Evaluates ast options levels c) :
    (start options).Grows c.state := by
  induction h with
  | bound hbind hcall => exact hbind.start_grows.trans hcall.state_grows
  | @exportedDefault n x b b' hvisit _ hout =>
      have hbind := Resolver.bind_grows { ast } b maxNesting x (some x) none
      rw [hout] at hbind
      exact hvisit.start_grows.trans hbind
  | specifier hvisit _ => exact hvisit.start_grows
  | part _ hcall ih => exact ih.trans hcall.state_grows

/-- **Whatever is bound is bound in a state that has grown from the first one.** -/
theorem Happens.start_grows {levels : Nat} {target : NodeId} {value : Option NodeId}
    {scope : Option SymbolId} {b : Bindings}
    (h : Happens ast options (.bind levels target value scope) b) : (start options).Grows b := by
  cases h with
  | bound hbind => exact hbind.start_grows
  | assigned hcall _ => exact hcall.start_grows

end start

/-! ### What is reported in the end -/

section run

variable {ast : Ast} {options : AnalysisOptions} (hfirst : ast.ChildrenFirst)
  (hprogram : ast.program < ast.size)
include hfirst hprogram

theorem Visits.assign_grows {n : NodeId} {c : Bindings} (h : Visits ast options n c) :
    n < ast.size ∧ (Resolver.assign { ast } n c).Grows (ofAst ast options) :=
  Resolver.Visits.assign_grows hfirst h hprogram

/-- An exported declaration. -/
theorem Visits.exportDeclaration_grows {n x : NodeId} {specifiers : List NodeId} {c : Bindings}
    (h : Visits ast options n c) (hnode : ast.node n = .exportNamed (some x) specifiers) :
    (Resolver.exportDeclaration { ast } x c).Grows (ofAst ast options) := by
  obtain ⟨hn, hvisit⟩ := h.assign_grows hfirst hprogram
  rw [Resolver.assign_exportNamed hfirst hn hnode] at hvisit
  exact (Resolver.assignAll_grows _ specifiers _).trans hvisit

/-- **A run goes on where a binding ends.** -/
theorem Binds.grows {target : NodeId} {value : Option NodeId} {scope : Option SymbolId}
    {b : Bindings} (h : Binds ast options target value scope b) :
    (Resolver.bind { ast } maxNesting target value scope b).2.Grows (ofAst ast options) := by
  cases h with
  | hoisted hd => exact hd.grows.trans (Resolver.assignThrough_grows ..)
  | assignment hvisit hnode =>
      have hn := (hvisit.assign_grows hfirst hprogram).2
      rwa [Resolver.assign, Resolver.assignThrough, hnode] at hn
  | declarator hvisit hnode =>
      have hn := (hvisit.assign_grows hfirst hprogram).2
      rw [Resolver.assign, Resolver.assignThrough, hnode] at hn
      exact (Resolver.bindDeclarators_grows_of_mem ..).trans hn
  | @exportedDeclarator n x specifiers kind before after d c hvisit hnode hx =>
      have hexport := hvisit.exportDeclaration_grows hfirst hprogram hnode
      rw [Resolver.exportDeclaration, hx] at hexport
      have hmark : (Resolver.bindDeclarators { ast } (before ++ d :: after) c).2.Grows
          (ofAst ast options) := by
        refine .trans ?_ hexport
        exact Bindings.Grows.foldl (fun b s => .markExported b s) _ _
      exact (Resolver.bindDeclarators_grows_of_mem ..).trans hmark
  | exported hvisit hnode hx =>
      refine .trans ?_ (hvisit.exportDeclaration_grows hfirst hprogram hnode)
      rw [Resolver.exportDeclaration]
      split
      · next hnode => exact absurd hnode (hx _ _)
      · split
        · next hout =>
            rw [hout]
            exact .markExported ..
        · next hout =>
            rw [hout]
            exact .refl _
  | exportedDefault hvisit hnode =>
      have hn := (hvisit.assign_grows hfirst hprogram).2
      rw [Resolver.assign, Resolver.assignThrough, hnode] at hn
      exact (Resolver.exportDefault_grows _ _ _).trans hn
  | functionDeclaration hvisit hnode hname =>
      have hn := (hvisit.assign_grows hfirst hprogram).2
      rw [Resolver.assign, Resolver.assignThrough, hnode] at hn
      dsimp only at hn
      rwa [if_pos hname] at hn
  | classDeclaration hvisit hnode =>
      have hn := (hvisit.assign_grows hfirst hprogram).2
      rwa [Resolver.assign, Resolver.assignThrough, hnode] at hn

/-- **A run goes on where an evaluated expression ends**, so what the expression reports is reported
in the end. -/
theorem Evaluates.grows {levels : Nat} {c : Call} (h : Evaluates ast options levels c) :
    (c.run (Resolver.resolve { ast } levels)).2.Grows (ofAst ast options) := by
  induction h with
  | bound hbind hcall => exact hcall.grows.trans (hbind.grows hfirst hprogram)
  | exportedDefault hvisit hnode hout =>
      have hn := (hvisit.assign_grows hfirst hprogram).2
      rw [Resolver.assign, Resolver.assignThrough, hnode] at hn
      exact (Resolver.exportDefault_grows_of_none _ hout).trans hn
  | specifier hvisit hnode =>
      have hn := (hvisit.assign_grows hfirst hprogram).2
      rw [Resolver.assign, Resolver.assignThrough, hnode] at hn
      exact (Resolver.exportSpecifier_grows _ _ _).trans hn
  | part _ hcall ih => exact hcall.grows.trans ih

end run

end Analysis

end ExportSurface

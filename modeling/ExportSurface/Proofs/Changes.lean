/-
What performing a task asks for and changes.

Resolving, binding and the two passes call each other, but each of them asks for a few things only,
and there are few ways in which it changes the state.  They are listed here, once, with everything
that is known of them: `Asks` has the tasks that a task asks for, each with the state in which it
does, and `Change` the changes that it makes itself.

Main definitions:

* `Ast.Occurs` — a node occurs in another one;
* `Ast.Stores`, `Resolver.Addresses` — the names that storing at a target sets, and the entry;
* `Asks` — the tasks that a task asks for;
* `Task.Makes`, `Change` — the symbols that a task makes, and the changes.

Main result:

* `Change.grows` — changes only add symbols and diagnostics.
-/

import ExportSurface.Proofs.BinderPrograms

set_option autoImplicit false

namespace ExportSurface

open SymbolGraph (root)

/-! ### Nodes -/

/-- Past the end of the arena there are only unnamed unsupported nodes. -/
theorem Ast.lt_size_of_node_ne {ast : Ast} {id : NodeId} (h : ast.node id ≠ .other "") :
    id < ast.size := by
  rcases Nat.lt_or_ge id ast.size with hlt | hge
  · exact hlt
  · refine absurd ?_ h
    rw [Ast.node, Array.getElem?_eq_none hge]

/-- A node occurs in another one: it is that node, or a part of a node that occurs there. -/
inductive Ast.Occurs (ast : Ast) (whole : NodeId) : NodeId → Prop where
  | here : Occurs ast whole whole
  | part {n p : NodeId} : Occurs ast whole n → p ∈ (ast.node n).references → Occurs ast whole p

namespace Ast.Occurs

variable {ast : Ast} {whole n : NodeId}

/-- Nodes that are closed under parts hold everything that occurs in them. -/
theorem mem_of_closed {nodes : List NodeId} (hwhole : whole ∈ nodes)
    (hclosed : ∀ n ∈ nodes, ∀ p ∈ (ast.node n).references, p ∈ nodes) (h : ast.Occurs whole n) :
    n ∈ nodes := by
  induction h with
  | here => exact hwhole
  | part _ hp ih => exact hclosed _ ih _ hp

/-- What occurs in a node is that node, or occurs in one of its parts. -/
theorem eq_or_part (h : ast.Occurs whole n) :
    n = whole ∨ ∃ p ∈ (ast.node whole).references, ast.Occurs p n := by
  induction h with
  | here => exact .inl rfl
  | @part n q _ hq ih =>
      rcases ih with rfl | ⟨p, hp, hn⟩
      · exact .inr ⟨q, hq, .here⟩
      · exact .inr ⟨p, hp, .part hn hq⟩

theorem of_part (h : n ∈ (ast.node whole).references) : ast.Occurs whole n := .part .here h

theorem trans {p : NodeId} (h : ast.Occurs whole n) (hp : ast.Occurs n p) : ast.Occurs whole p := by
  induction hp with
  | here => exact h
  | part _ hq ih => exact .part ih hq

end Ast.Occurs

namespace Ast.ChildrenFirst

variable {ast : Ast} (h : ast.ChildrenFirst) {id : NodeId} (hid : id < ast.size)
include h hid

/-- In a tree whose nodes come after their parts, the parts of a node are nodes of the tree. -/
theorem lt_size {part : NodeId} (hpart : part ∈ (ast.node id).references) : part < ast.size :=
  Nat.lt_trans (h id hid part hpart) hid

theorem lt_of_occurs {n : NodeId} (hn : ast.Occurs id n) : n < ast.size := by
  induction hn with
  | here => exact hid
  | part _ hp ih => exact h.lt_size ih hp

end Ast.ChildrenFirst

/-- The names that a node mentions, as an identifier or as the text of a literal key. -/
def Node.mentioned : Node → List String
  | .identifier name => [name]
  | .literal value => value.key?.toList
  | _ => []

/-- Is an object made for the node when it is resolved? -/
def Node.denotesObject : Node → Bool
  | .functionDeclaration _ | .functionExpression _ | .arrowFunction | .classDeclaration _ _
  | .classBody _ | .object _ => true
  | _ => false

/-- Is it a member access? -/
def Node.isMember : Node → Bool
  | .member _ _ _ => true
  | _ => false

/-! ### Keys -/

namespace Ast

/-- The key of a member access is evaluated: it is neither a plain name nor a literal. -/
def isDynamicKey (ast : Ast) (property : NodeId) (computed : Bool) : Bool :=
  match ast.node property with
  | .identifier _ => computed
  | .literal _ => false
  | _ => true

/-- A key of a member access: what its syntax says, or else the text of some literal. -/
def Yields (ast : Ast) (b : Bindings) (property : NodeId) (computed : Bool) (key : String) : Prop :=
  if ast.isDynamicKey property computed then ∃ s, (b.graph.get s).key? = some key
  else ast.staticKey? property = some key

theorem yields_of_dynamic {ast : Ast} {property : NodeId} {computed : Bool}
    (h : ast.isDynamicKey property computed = true) (b : Bindings) (key : String) :
    ast.Yields b property computed key ↔ ∃ s, (b.graph.get s).key? = some key := by
  rw [Yields, if_pos h]

theorem yields_of_static {ast : Ast} {property : NodeId} {computed : Bool}
    (h : ast.isDynamicKey property computed = false) (b : Bindings) (key : String) :
    ast.Yields b property computed key ↔ ast.staticKey? property = some key := by
  rw [Yields, h, if_neg Bool.false_ne_true]

theorem Yields.mono {ast : Ast} {b b' : Bindings} {property : NodeId} {computed : Bool}
    {key : String} (h : ast.Yields b property computed key) (hgrows : b.Grows b') :
    ast.Yields b' property computed key := by
  cases hdynamic : ast.isDynamicKey property computed with
  | true =>
      obtain ⟨s, hs⟩ := (yields_of_dynamic hdynamic b key).1 h
      exact (yields_of_dynamic hdynamic b' key).2 ⟨s, hgrows.key?_eq hs⟩
  | false =>
      rw [yields_of_static hdynamic] at h ⊢
      exact h

/-- A name that storing at a node sets. -/
inductive Stores (ast : Ast) (b : Bindings) (target : NodeId) : String → Prop where
  | name {name : String} : ast.node target = .identifier name → Stores ast b target name
  | functionName {id : NodeId} {name : String} :
      ast.node target = .functionDeclaration (some id) → ast.node id = .identifier name →
      Stores ast b target name
  | className {id body : NodeId} {name : String} :
      ast.node target = .classDeclaration (some id) body → ast.node id = .identifier name →
      Stores ast b target name
  | member {base property : NodeId} {computed : Bool} {key : String} :
      ast.node target = .member base property computed → ast.Yields b property computed key →
      Stores ast b target key

end Ast

namespace Resolver

/-- The options with which a key is resolved that is not read off the tree. -/
def keyOptions? (r : Resolver) (property : NodeId) (computed : Bool) : Option ResolveOptions :=
  match r.keys with
  | .resolved => some { simpleIdentifier := !computed }
  | .direct => if r.ast.isDynamicKey property computed then some {} else none

variable {r : Resolver} {recur : Resolve} {property : NodeId} {computed : Bool}
  {scope : Option SymbolId} {b b' : Bindings}

/-- A key is resolved, or it is read off the tree. -/
theorem memberKey?_eq_match (r : Resolver) (recur : Resolve) (property : NodeId) (computed : Bool)
    (scope : Option SymbolId) (b : Bindings) :
    r.memberKey? recur property computed scope b =
      match r.keyOptions? property computed with
      | some options => resolvedKey? recur property scope options b
      | none => (r.ast.staticKey? property, b) := by
  rw [memberKey?, keyOptions?]
  cases r.keys with
  | resolved => rfl
  | direct =>
      rw [Ast.isDynamicKey, Ast.staticKey?]
      cases r.ast.node property with
      | identifier name => cases computed <;> rfl
      | _ => rfl

theorem keyOptions?_direct (hkeys : r.keys = .direct) {options : ResolveOptions}
    (h : r.keyOptions? property computed = some options) :
    options = {} ∧ r.ast.isDynamicKey property computed = true := by
  rw [keyOptions?, hkeys] at h
  obtain ⟨hdynamic, ⟨⟩⟩ := Option.ite_none_right_eq_some.1 h
  exact ⟨rfl, hdynamic⟩

/-- No members are made while a key is resolved. -/
theorem createMissing_keyOptions? {options : ResolveOptions}
    (h : r.keyOptions? property computed = some options) : options.createMissing = false := by
  rw [keyOptions?] at h
  split at h
  · cases h
    rfl
  · obtain ⟨-, ⟨⟩⟩ := Option.ite_none_right_eq_some.1 h
    rfl

theorem snd_resolvedKey? (recur : Resolve) (property : NodeId) (scope : Option SymbolId)
    (options : ResolveOptions) (b : Bindings) :
    (resolvedKey? recur property scope options b).2 = (recur property scope options b).2 := by
  rw [resolvedKey?]
  split <;> simp [*]

/-- The key that is found is one that the access yields. -/
theorem yields_of_memberKey? (hkeys : r.keys = .direct) {key : String}
    (h : r.memberKey? recur property computed scope b = (some key, b')) :
    r.ast.Yields b' property computed key := by
  rw [memberKey?_eq_match, keyOptions?, hkeys] at h
  cases hdynamic : r.ast.isDynamicKey property computed with
  | false =>
      rw [hdynamic] at h
      exact (Ast.yields_of_static hdynamic b' key).2 (congrArg Prod.fst h)
  | true =>
      refine (Ast.yields_of_dynamic hdynamic b' key).2 ?_
      simp only [hdynamic, if_true, resolvedKey?] at h
      split at h
      · next s c _ =>
          cases congrArg Prod.snd h
          exact ⟨s, congrArg Prod.fst h⟩
      · cases congrArg Prod.fst h

/-- The owner and the key that storing at a target sets, and the bindings in which the owner is
found: a name is set in the scope, a named declaration among the globals, and a member access sets
the member it names. -/
inductive Addresses (r : Resolver) (levels : Nat) (target : NodeId) (scope : Option SymbolId)
    (b : Bindings) : SymbolId → String → Bindings → Prop where
  | name {name : String} : r.ast.node target = .identifier name →
      Addresses r levels target scope b (scope.getD root) name b
  | functionName {id : NodeId} {name : String} :
      r.ast.node target = .functionDeclaration (some id) → r.ast.node id = .identifier name →
      Addresses r levels target scope b root name b
  | className {id body : NodeId} {name : String} :
      r.ast.node target = .classDeclaration (some id) body → r.ast.node id = .identifier name →
      Addresses r levels target scope b root name b
  | member {base property : NodeId} {computed : Bool} {owner : SymbolId} {key : String}
      {found keyed : Bindings} : r.ast.node target = .member base property computed →
      r.resolve levels base (some (scope.getD root)) {} b = (some owner, found) →
      (found.graph.get owner).hasMembers = true →
      r.memberKey? (r.resolve levels) property computed (some (scope.getD root)) found =
        (some key, keyed) →
      Addresses r levels target scope b owner key found

/-- Storing at a name sets a global or an entry of the scope. -/
theorem Addresses.owner_cases {levels : Nat} {target : NodeId} {owner : SymbolId} {key : String}
    {found : Bindings} (h : r.Addresses levels target scope b owner key found) :
    owner = root ∨ owner = scope.getD root ∨
      (r.ast.node target).isMember = true ∧ (found.graph.get owner).hasMembers = true := by
  cases h with
  | name _ => exact .inr (.inl rfl)
  | functionName _ _ => exact .inl rfl
  | className _ _ => exact .inl rfl
  | member hnode _ hmembers _ => exact .inr (.inr ⟨by rw [hnode]; rfl, hmembers⟩)

end Resolver

/-! ### The tasks that a task asks for -/

/-- A task that was started in `b₀` asks for another one in some state. -/
inductive Asks (r : Resolver) (b₀ : Bindings) : Task → Task → Bindings → Prop where
  -- Resolving a node
  | base {levels : Nat} {id base property : NodeId} {computed : Bool} {scope : Option SymbolId}
      {options : ResolveOptions} : r.ast.node id = .member base property computed →
      Asks r b₀ (.resolve (levels + 1) id scope options) (.resolve levels base scope options) b₀
  | key {levels : Nat} {id base property : NodeId} {computed : Bool} {scope : Option SymbolId}
      {options keyOptions : ResolveOptions} : r.ast.node id = .member base property computed →
      r.keyOptions? property computed = some keyOptions →
      Asks r b₀ (.resolve (levels + 1) id scope options)
        (.resolve levels property scope keyOptions) (r.resolve levels base scope options b₀).2
  | assignment {levels : Nat} {id target value : NodeId} {scope : Option SymbolId}
      {options : ResolveOptions} : r.ast.node id = .assignment target value →
      Asks r b₀ (.resolve (levels + 1) id scope options) (.bind levels target (some value) scope) b₀
  | entry {levels : Nat} {id : NodeId} {before after : List Entry} {entry : Entry} {key : String}
      {scope : Option SymbolId} {options : ResolveOptions} :
      r.ast.node id = .object (before ++ entry :: after) → r.ast.entryKey? entry = some key →
      Asks r b₀ (.resolve (levels + 1) id scope options) (.resolve levels entry.value scope options)
        (r.addProperties (r.resolve levels) scope options b₀.graph.size before
          (b₀.alloc (.object (some id))).2)
  -- Binding a target
  | classBody {levels : Nat} {target id body : NodeId} {name : String} {value : Option NodeId}
      {scope : Option SymbolId} : r.ast.node target = .classDeclaration (some id) body →
      r.ast.node id = .identifier name →
      Asks r b₀ (.bind levels target value scope) (.resolve levels body (some root) {}) b₀
  | function {levels : Nat} {target id : NodeId} {name : String} {value : Option NodeId}
      {scope : Option SymbolId} : r.ast.node target = .functionDeclaration (some id) →
      r.ast.node id = .identifier name →
      Asks r b₀ (.bind levels target value scope) (.resolve levels target (some root) {}) b₀
  | named {levels : Nat} {target value : NodeId} {name : String} {scope : Option SymbolId} :
      r.ast.node target = .identifier name →
      Asks r b₀ (.bind levels target (some value) scope)
        (.resolve levels value (some (scope.getD root)) {}) b₀
  | targetBase {levels : Nat} {target base property : NodeId} {computed : Bool}
      {value : Option NodeId} {scope : Option SymbolId} :
      r.ast.node target = .member base property computed →
      Asks r b₀ (.bind levels target value scope)
        (.resolve levels base (some (scope.getD root)) {}) b₀
  | targetKey {levels : Nat} {target base property : NodeId} {computed : Bool}
      {keyOptions : ResolveOptions} {value : Option NodeId} {scope : Option SymbolId} :
      r.ast.node target = .member base property computed →
      r.keyOptions? property computed = some keyOptions →
      Asks r b₀ (.bind levels target value scope)
        (.resolve levels property (some (scope.getD root)) keyOptions)
        (r.resolve levels base (some (scope.getD root)) {} b₀).2
  | member {levels : Nat} {target base property value : NodeId} {computed : Bool} {owner : SymbolId}
      {key : String} {found keyed : Bindings} {scope : Option SymbolId} :
      r.ast.node target = .member base property computed →
      r.resolve levels base (some (scope.getD root)) {} b₀ = (some owner, found) →
      (found.graph.get owner).hasMembers = true →
      r.memberKey? (r.resolve levels) property computed (some (scope.getD root)) found =
        (some key, keyed) →
      Asks r b₀ (.bind levels target (some value) scope)
        (.resolve levels value (some (scope.getD root)) {}) keyed
  -- The declaration pass
  | declareStatement {fuel : Nat} {id x : NodeId} {before after : List NodeId} :
      r.ast.node id = .program (before ++ x :: after) →
      Asks r b₀ (.declare (fuel + 1) id) (.declare fuel x)
        (before.foldl (fun b y => r.declareThrough fuel y b) b₀)
  | declareExpression {fuel : Nat} {id x : NodeId} : r.ast.node id = .expressionStatement x →
      Asks r b₀ (.declare (fuel + 1) id) (.declare fuel x) b₀
  | declareExported {fuel : Nat} {id x : NodeId} {specifiers : List NodeId} :
      r.ast.node id = .exportNamed (some x) specifiers →
      Asks r b₀ (.declare (fuel + 1) id) (.declare fuel x) b₀
  | hoisted {fuel : Nat} {id : NodeId} {kind : DeclarationKind} {before after : List Declarator}
      {d : Declarator} : r.ast.node id = .variableDeclaration kind (before ++ d :: after) →
      Asks r b₀ (.declare (fuel + 1) id) (.bind maxNesting d.target none (some root))
        (before.foldl (r.declareVariable kind) b₀)
  -- The assignment pass
  | statement {fuel : Nat} {id x : NodeId} {before after : List NodeId} :
      r.ast.node id = .program (before ++ x :: after) →
      Asks r b₀ (.assign (fuel + 1) id) (.assign fuel x)
        (before.foldl (fun b y => r.assignThrough fuel y b) b₀)
  | expression {fuel : Nat} {id x : NodeId} : r.ast.node id = .expressionStatement x →
      Asks r b₀ (.assign (fuel + 1) id) (.assign fuel x) b₀
  | stored {fuel : Nat} {id target value : NodeId} : r.ast.node id = .assignment target value →
      Asks r b₀ (.assign (fuel + 1) id) (.bind maxNesting target (some value) none) b₀
  | declarator {fuel : Nat} {id : NodeId} {kind : DeclarationKind} {before after : List Declarator}
      {d : Declarator} : r.ast.node id = .variableDeclaration kind (before ++ d :: after) →
      Asks r b₀ (.assign (fuel + 1) id) (.bind maxNesting d.target d.init none)
        (r.bindDeclarators before b₀).2
  | functionDeclaration {fuel : Nat} {id name : NodeId} :
      r.ast.node id = .functionDeclaration (some name) →
      (r.ast.identifierName? name).isSome = true →
      Asks r b₀ (.assign (fuel + 1) id) (.bind maxNesting name (some id) (some root)) b₀
  | classDeclaration {fuel : Nat} {id name body : NodeId} :
      r.ast.node id = .classDeclaration (some name) body →
      Asks r b₀ (.assign (fuel + 1) id) (.bind maxNesting name (some body) (some root)) b₀
  | exportedDefault {fuel : Nat} {id x : NodeId} : r.ast.node id = .exportDefault x →
      Asks r b₀ (.assign (fuel + 1) id) (.bind maxNesting x (some x) none) b₀
  | defaultValue {fuel : Nat} {id x : NodeId} {b : Bindings} : r.ast.node id = .exportDefault x →
      r.bind maxNesting x (some x) none b₀ = (none, b) →
      Asks r b₀ (.assign (fuel + 1) id) (.resolve maxNesting x none {}) b
  | exportedDeclarator {fuel : Nat} {id x : NodeId} {specifiers : List NodeId}
      {kind : DeclarationKind} {before after : List Declarator} {d : Declarator} :
      r.ast.node id = .exportNamed (some x) specifiers →
      r.ast.node x = .variableDeclaration kind (before ++ d :: after) →
      Asks r b₀ (.assign (fuel + 1) id) (.bind maxNesting d.target d.init none)
        (r.bindDeclarators before b₀).2
  | exported {fuel : Nat} {id x : NodeId} {specifiers : List NodeId} :
      r.ast.node id = .exportNamed (some x) specifiers →
      (∀ kind declarators, r.ast.node x ≠ .variableDeclaration kind declarators) →
      Asks r b₀ (.assign (fuel + 1) id) (.bind maxNesting x (some x) none) b₀
  | specifier {fuel : Nat} {id x : NodeId} {declaration : Option NodeId}
      {before after : List NodeId} :
      r.ast.node id = .exportNamed declaration (before ++ x :: after) →
      Asks r b₀ (.assign (fuel + 1) id) (.assign fuel x)
        (before.foldl (fun b y => r.assignThrough fuel y b)
          (declaration.elim b₀ fun d => r.exportDeclaration d b₀))
  | source {fuel : Nat} {id source : NodeId} : r.ast.node id = .exportSpecifier source →
      Asks r b₀ (.assign (fuel + 1) id) (.resolve maxNesting source (some root) {}) b₀

namespace Asks

variable {r : Resolver} {b₀ b : Bindings} {t t' : Task}

section parts

variable {id n target : NodeId}

theorem occurs_part (hn : n ∈ (r.ast.node id).references) {given : List NodeId}
    (hid : id ∈ given) : ∀ p ∈ [n], ∃ m ∈ given, r.ast.Occurs m p := by
  intro p hp
  rw [List.mem_singleton.1 hp]
  exact ⟨id, hid, .of_part hn⟩

/-- A node has one of its parts bound, to itself or to another part. -/
theorem occurs_bind (htarget : target ∈ (r.ast.node id).references) {value : Option NodeId}
    (hvalue : ∀ v, value = some v → v = id ∨ v ∈ (r.ast.node id).references) :
    ∀ p ∈ target :: value.toList, ∃ m ∈ [id], r.ast.Occurs m p := by
  intro p hp
  refine ⟨id, List.mem_singleton.2 rfl, ?_⟩
  rcases List.mem_cons.1 hp with rfl | hp
  · exact .of_part htarget
  · rcases hvalue p (Option.mem_toList.1 hp) with rfl | hp
    · exact .here
    · exact .of_part hp

theorem occurs_declarator {kind : DeclarationKind} {before after : List Declarator}
    {d : Declarator} (hnode : r.ast.node id = .variableDeclaration kind (before ++ d :: after)) :
    ∀ p ∈ d.target :: d.init.toList, r.ast.Occurs id p := by
  intro p hp
  refine .of_part ?_
  rw [hnode]
  exact List.mem_flatMap.2 ⟨d, by simp, hp⟩

end parts

/-- What is given to a task occurs in what was given to the one that asks for it. -/
theorem occurs (h : Asks r b₀ t t' b) : ∀ n ∈ t'.given, ∃ m ∈ t.given, r.ast.Occurs m n := by
  cases h with
  | base hnode => exact occurs_part (by simp [hnode, Node.references]) (List.mem_cons_self ..)
  | key hnode _ => exact occurs_part (by simp [hnode, Node.references]) (List.mem_cons_self ..)
  | assignment hnode =>
      exact occurs_bind (by simp [hnode, Node.references]) (by simp [hnode, Node.references])
  | entry hnode _ => exact occurs_part (by simp [hnode, Node.references]) (List.mem_cons_self ..)
  | classBody hnode _ =>
      exact occurs_part (by simp [hnode, Node.references]) (List.mem_cons_self ..)
  | function _ _ => exact fun n hn => ⟨n, List.mem_cons.2 (.inl (List.mem_singleton.1 hn)), .here⟩
  | named _ => exact fun n hn => ⟨n, List.mem_cons_of_mem _ hn, .here⟩
  | targetBase hnode =>
      exact occurs_part (by simp [hnode, Node.references]) (List.mem_cons_self ..)
  | targetKey hnode _ =>
      exact occurs_part (by simp [hnode, Node.references]) (List.mem_cons_self ..)
  | member _ _ _ _ => exact fun n hn => ⟨n, List.mem_cons_of_mem _ hn, .here⟩
  | declareStatement hnode | declareExpression hnode | declareExported hnode | statement hnode
  | expression hnode | defaultValue hnode _ | specifier hnode | source hnode =>
      exact occurs_part (by simp [hnode, Node.references]) (List.mem_cons_self ..)
  | @hoisted fuel id kind before after d hnode =>
      intro n hn
      refine ⟨id, List.mem_singleton.2 rfl, occurs_declarator hnode n ?_⟩
      exact List.mem_cons.2 (.inl (List.mem_singleton.1 hn))
  | @declarator fuel id kind before after d hnode =>
      exact fun n hn => ⟨id, List.mem_singleton.2 rfl, occurs_declarator hnode n hn⟩
  | stored hnode | functionDeclaration hnode _ | classDeclaration hnode | exportedDefault hnode
  | exported hnode _ =>
      exact occurs_bind (by simp [hnode, Node.references]) (by simp [hnode, Node.references])
  | @exportedDeclarator fuel id x specifiers kind before after d hnode hx =>
      have hpart : r.ast.Occurs id x := .of_part (by simp [hnode, Node.references])
      exact fun n hn => ⟨id, List.mem_singleton.2 rfl, hpart.trans (occurs_declarator hx n hn)⟩

/-- Names are looked up in the same scope, or among the globals. -/
theorem home_eq (h : Asks r b₀ t t' b) : t'.home = t.home ∨ t'.home = root := by
  cases h with
  | base _ | key _ _ | assignment _ | entry _ _ | named _ | targetBase _ | targetKey _ _
  | member _ _ _ _ => exact .inl rfl
  | _ => exact .inr rfl

/-- Only a pass that declares asks for one. -/
theorem declares_eq_false (h : Asks r b₀ t t' b) (ht : t.declares = false) :
    t'.declares = false := by
  cases h with
  | declareStatement _ | declareExpression _ | declareExported _ => contradiction
  | _ => rfl

/-- Only a pass that assigns asks for one. -/
theorem assigns_eq_false (h : Asks r b₀ t t' b) (ht : t.assigns = false) : t'.assigns = false := by
  cases h with
  | statement _ | expression _ | specifier _ => contradiction
  | _ => rfl

end Asks

/-! ### The changes that a task makes -/

/-- A symbol that a task makes. -/
inductive Task.Makes (ast : Ast) : Task → Symbol → Prop where
  | name {levels : Nat} {id : NodeId} {name : String} {scope : Option SymbolId}
      {options : ResolveOptions} : ast.node id = .identifier name →
      options.simpleIdentifier = true →
      Makes ast (.resolve (levels + 1) id scope options) (.literal none (some name))
  | literal {levels : Nat} {id : NodeId} {value : Literal} {scope : Option SymbolId}
      {options : ResolveOptions} : ast.node id = .literal value →
      Makes ast (.resolve (levels + 1) id scope options) (.literal (some id) value.key?)
  | object {levels : Nat} {id : NodeId} {scope : Option SymbolId} {options : ResolveOptions} :
      (ast.node id).denotesObject = true →
      Makes ast (.resolve (levels + 1) id scope options) (.object (some id))
  | method {levels : Nat} {id : NodeId} {methods : List Entry} {m : Entry} {key : String}
      {scope : Option SymbolId} {options : ResolveOptions} : ast.node id = .classBody methods →
      m ∈ methods → ast.entryKey? m = some key →
      Makes ast (.resolve (levels + 1) id scope options) (.object (some m.value))
  /-- The prototype of a function, or a missing member. -/
  | unnamed {levels : Nat} {id : NodeId} {scope : Option SymbolId} {options : ResolveOptions} :
      Makes ast (.resolve (levels + 1) id scope options) (.object none)
  | placeholder {levels : Nat} {target : NodeId} {name : String} {scope : Option SymbolId} :
      ast.node target = .identifier name → Makes ast (.bind levels target none scope) .placeholder

namespace Task.Makes

variable {ast : Ast} {t : Task} {s : Symbol}

theorem props (h : t.Makes ast s) : s.props = .empty := by
  cases h <;> rfl

theorem exported (h : t.Makes ast s) : s.exported = false := by
  cases h <;> rfl

/-- A symbol is made for a node that occurs in the task's, if for any. -/
theorem occurs (h : t.Makes ast s) {n : NodeId} (hn : s.value = some n) :
    ast.Occurs t.node n := by
  cases h with
  | literal _ =>
      cases hn
      exact .here
  | object _ =>
      cases hn
      exact .here
  | method hnode hm _ =>
      cases hn
      refine .of_part ?_
      rw [Task.node, hnode]
      exact List.mem_flatMap.2 ⟨_, hm, by simp⟩
  | _ => contradiction

end Task.Makes

/-- A symbol that a task can see: the globals, the scope, and what is known. -/
def Task.Sees (t : Task) (knows : Bindings → SymbolId → Prop) (b : Bindings) (id : SymbolId) :
    Prop :=
  id = root ∨ id = t.home ∨ knows b id

/-- A task that was started in `b₀` makes a change in the state `b`.  Symbols that are stored are
known. -/
inductive Change (r : Resolver) (knows : Bindings → SymbolId → Prop) (b₀ b : Bindings) :
    Task → Bindings → Prop where
  | limit {id : NodeId} {scope : Option SymbolId} {options : ResolveOptions} :
      Change r knows b₀ b (.resolve 0 id scope options) (b.report (.nestingLimit id))
  | report {t : Task} {d : Diagnostic} : (∀ id, d ≠ .nestingLimit id) →
      r.ast.Occurs t.node d.node → Change r knows b₀ b t (b.report d)
  | alloc {t : Task} {s : Symbol} : t.Makes r.ast s → Change r knows b₀ b t (b.alloc s).2
  /-- An object that was just made gets a property. -/
  | fill {levels : Nat} {id : NodeId} {scope : Option SymbolId} {options : ResolveOptions}
      {key : String} {s : SymbolId} : b₀.graph.size < b.graph.size →
      (b.graph.get b₀.graph.size).hasMembers = true → knows b s →
      Change r knows b₀ b (.resolve (levels + 1) id scope options)
        (b.setProp b₀.graph.size key s)
  /-- A member that is missing is made. -/
  | create {levels : Nat} {id : NodeId} {scope : Option SymbolId} {options : ResolveOptions}
      {owner : SymbolId} {key : String} {c : Bindings} : options.createMissing = true →
      b₀.Grows c → knows c owner → (c.graph.get owner).hasMembers = true →
      c.graph.prop? owner key = none → b = (c.alloc (.object none)).2 → knows b c.graph.size →
      Change r knows b₀ b (.resolve (levels + 1) id scope options)
        (b.setProp owner key c.graph.size)
  | store {levels : Nat} {target : NodeId} {value : Option NodeId} {scope : Option SymbolId}
      {owner s : SymbolId} {key : String} {found : Bindings} :
      r.Addresses levels target scope b₀ owner key found → found.Grows b →
      ((r.ast.node target).isMember = true → knows found owner) →
      (r.keys = .direct → r.ast.Stores b target key) → knows b s →
      r.bind levels target value scope b₀ = (some s, b.setProp owner key s) →
      Change r knows b₀ b (.bind levels target value scope) (b.setProp owner key s)
  /-- A variable is also set on the symbol that `window` denotes. -/
  | window {fuel : Nat} {id : NodeId} {kind : DeclarationKind} {declarators : List Declarator}
      {d : Declarator} {name : String} {window s : SymbolId} :
      r.ast.node id = .variableDeclaration kind declarators → d ∈ declarators →
      r.ast.node d.target = .identifier name → b.graph.prop? root "window" = some window →
      knows b window → knows b s →
      Change r knows b₀ b (.declare (fuel + 1) id) (b.setProp window name s)
  | storeDefault {fuel : Nat} {id x : NodeId} {s : SymbolId} : r.ast.node id = .exportDefault x →
      knows b s → Change r knows b₀ b (.assign (fuel + 1) id)
        (b.setProp root Resolver.defaultExport s)
  | mark {fuel : Nat} {id : NodeId} {s : SymbolId} : knows b s →
      Change r knows b₀ b (.assign (fuel + 1) id) (b.markExported s)

theorem Change.grows {r : Resolver} {knows : Bindings → SymbolId → Prop} {b₀ b b' : Bindings}
    {t : Task} (h : Change r knows b₀ b t b') : b.Grows b' := by
  cases h with
  | limit => exact .report b _
  | report _ _ => exact .report b _
  | alloc _ => exact .alloc b _
  | fill _ _ _ => exact .setProp b _ _ _
  | create _ _ _ _ _ _ _ => exact .setProp b _ _ _
  | store _ _ _ _ _ _ => exact .setProp b _ _ _
  | window _ _ _ _ _ _ => exact .setProp b _ _ _
  | storeDefault _ _ => exact .setProp b _ _ _
  | mark _ => exact .markExported b _

end ExportSurface

/-
Which syntax a change of the bindings comes from.

Every change is traced back to the nodes that are evaluated: a symbol is made for one of them, a
property is set on an object that is itself new, or a property is set because one of them stores at
a target, and then under a name that this target gives.  So what some statements leave alone can be
read off the nodes that occur in them.

A key that is neither a plain name nor a literal is evaluated, and then the name that is set may
come from any literal that exists by then, wherever it was written.  This concerns the globals only
if the global scope can be got hold of, for which there is no way but the alias `window`.

Main definitions:

* `Ast.Within`, `Ast.StoredAt` — what occurs in some nodes, and what they store at;
* `Task.Within` — a task that is given such nodes;
* `Bindings.Lacks` — no symbol yields a key;
* `Bindings.HidesRoot` — no property leads to the global scope;
* `Ast.hasDynamicKey` — storing at a node evaluates a key;
* `Task.SetsGlobal` — a task sets a global under a key that it evaluates.

Main results:

* `Asks.within` — **what a task asks for is given nodes that occur in its own**;
* `Change.lacks` — only literals bring new keys;
* `Change.hidesRoot` — what cannot be found cannot be stored;
* `Change.prop?_root_eq_or_setsGlobal` — **a global whose name is not mentioned keeps its value**,
  unless a key is evaluated to the name.
-/

import ExportSurface.Proofs.SafeTasks

set_option autoImplicit false

namespace ExportSurface

open SymbolGraph (root)

/-! ### Nodes that are evaluated, nodes that are stored at -/

/-- The nodes that a node stores at. -/
def Node.targets : Node → List NodeId
  | .assignment target _ => [target]
  | .variableDeclaration _ declarators => declarators.map Declarator.target
  | .functionDeclaration id => id.toList
  | .classDeclaration id _ => id.toList
  | .exportDefault declaration => [declaration]
  | .exportNamed declaration _ => declaration.toList
  | _ => []

theorem Node.targets_subset (n : Node) : n.targets ⊆ n.references := by
  intro t ht
  cases n with
  | assignment target value =>
      rw [List.mem_singleton.1 ht]
      exact List.mem_cons_self ..
  | variableDeclaration kind declarators =>
      obtain ⟨d, hd, rfl⟩ := List.mem_map.1 ht
      exact List.mem_flatMap.2 ⟨d, hd, List.mem_cons_self ..⟩
  | functionDeclaration id => exact ht
  | classDeclaration id body => exact List.mem_append_left _ ht
  | exportDefault declaration => exact ht
  | exportNamed declaration specifiers => exact List.mem_append_left _ ht
  | _ => exact absurd ht List.not_mem_nil

/-- A node occurs in one of the given ones. -/
def Ast.Within (ast : Ast) (wholes : List NodeId) (n : NodeId) : Prop :=
  ∃ x ∈ wholes, ast.Occurs x n

/-- A node is stored at by something that occurs in one of the given ones. -/
def Ast.StoredAt (ast : Ast) (wholes : List NodeId) (t : NodeId) : Prop :=
  ∃ n, ast.Within wholes n ∧ t ∈ (ast.node n).targets

section within

variable {ast : Ast} {wholes : List NodeId} {n p : NodeId}

theorem Ast.Within.occurs (h : ast.Within wholes n) (hp : ast.Occurs n p) :
    ast.Within wholes p := by
  obtain ⟨x, hx, hn⟩ := h
  exact ⟨x, hx, hn.trans hp⟩

theorem Ast.Within.part (h : ast.Within wholes n) (hp : p ∈ (ast.node n).references) :
    ast.Within wholes p :=
  h.occurs (.of_part hp)

theorem Ast.StoredAt.within (h : ast.StoredAt wholes p) : ast.Within wholes p := by
  obtain ⟨n, hn, hp⟩ := h
  exact hn.part (Node.targets_subset _ hp)

end within

/-! ### Tasks -/

/-- A task is given nodes that occur in the given ones, and stores where they store. -/
def Task.Within (ast : Ast) (wholes : List NodeId) : Task → Prop
  | resolve _ id _ options => ast.Within wholes id ∧ options = {}
  | bind _ target value _ =>
      ast.StoredAt wholes target ∧ ∀ v, value = some v → ast.Within wholes v
  | declare _ id | assign _ id => ast.Within wholes id

section tasks

variable {r : Resolver} {wholes : List NodeId} {t t' : Task} {b₀ b : Bindings}

/-- A node binds one of its targets, to itself or to one of its parts. -/
theorem Task.within_bind {n target : NodeId} (hn : r.ast.Within wholes n)
    (htarget : target ∈ (r.ast.node n).targets) {value : Option NodeId}
    (hvalue : ∀ v, value = some v → v = n ∨ v ∈ (r.ast.node n).references) (levels : Nat)
    (scope : Option SymbolId) : (Task.bind levels target value scope).Within r.ast wholes := by
  refine ⟨⟨n, hn, htarget⟩, fun v hv => ?_⟩
  rcases hvalue v hv with rfl | hv
  · exact hn
  · exact hn.part hv

theorem Task.within_declarator {n : NodeId} (hn : r.ast.Within wholes n) {kind : DeclarationKind}
    {before after : List Declarator} {d : Declarator}
    (hnode : r.ast.node n = .variableDeclaration kind (before ++ d :: after)) (levels : Nat)
    (scope : Option SymbolId) : (Task.bind levels d.target d.init scope).Within r.ast wholes := by
  have hd : d ∈ before ++ d :: after := by simp
  refine within_bind hn ?_ ?_ levels scope
  · rw [hnode]
    exact List.mem_map.2 ⟨d, hd, rfl⟩
  · intro v hv
    rw [hnode]
    exact .inr (List.mem_flatMap.2 ⟨d, hd, by simp [hv]⟩)

/-- **What a task asks for is given nodes that occur in its own.** -/
theorem Asks.within (h : Asks r b₀ t t' b) (hkeys : r.keys = .direct)
    (ht : t.Within r.ast wholes) : t'.Within r.ast wholes := by
  cases h with
  | base hnode | entry hnode _ =>
      exact ⟨ht.1.part (by simp [hnode, Node.references]), ht.2⟩
  | key hnode hkey =>
      exact ⟨ht.1.part (by simp [hnode, Node.references]),
        (Resolver.keyOptions?_direct hkeys hkey).1⟩
  | assignment hnode =>
      exact Task.within_bind ht.1 (by simp [hnode, Node.targets]) (by simp [hnode, Node.references])
        _ _
  | classBody hnode _ | targetBase hnode =>
      exact ⟨ht.1.within.part (by simp [hnode, Node.references]), rfl⟩
  | targetKey hnode hkey =>
      exact ⟨ht.1.within.part (by simp [hnode, Node.references]),
        (Resolver.keyOptions?_direct hkeys hkey).1⟩
  | function _ _ => exact ⟨ht.1.within, rfl⟩
  | named _ | member _ _ _ _ => exact ⟨ht.2 _ rfl, rfl⟩
  | declareStatement hnode | declareExpression hnode | declareExported hnode | statement hnode
  | expression hnode | specifier hnode =>
      exact Ast.Within.part ht (by simp [hnode, Node.references])
  | hoisted hnode =>
      refine Task.within_bind ht ?_ (by simp) _ _
      rw [hnode]
      exact List.mem_map.2 ⟨_, List.mem_append_right _ (.head _), rfl⟩
  | declarator hnode => exact Task.within_declarator ht hnode _ _
  | exportedDeclarator hnode hx =>
      exact Task.within_declarator (Ast.Within.part ht (by simp [hnode, Node.references])) hx _ _
  | stored hnode | functionDeclaration hnode _ | classDeclaration hnode | exportedDefault hnode
  | exported hnode _ =>
      exact Task.within_bind ht (by simp [hnode, Node.targets]) (by simp [hnode, Node.references])
        _ _
  | defaultValue hnode _ | source hnode =>
      exact ⟨Ast.Within.part ht (by simp [hnode, Node.references]), rfl⟩

end tasks

/-! ### Keys that are evaluated -/

/-- The key that a literal stands for. -/
def Node.literalKey? : Node → Option String
  | .literal value => value.key?
  | _ => none

theorem Node.mentioned_of_literalKey? {n : Node} {key : String} (h : n.literalKey? = some key) :
    key ∈ n.mentioned := by
  cases n with
  | literal value => exact Option.mem_toList.2 h
  | _ => contradiction

namespace Bindings

/-- No symbol yields the key. -/
def Lacks (b : Bindings) (key : String) : Prop := ∀ s, (b.graph.get s).key? ≠ some key

namespace Lacks

variable {b : Bindings} {key : String}

theorem alloc (h : b.Lacks key) {s : Symbol} (hs : s.key? ≠ some key) :
    (b.alloc s).2.Lacks key := by
  intro id
  rw [alloc_graph, SymbolGraph.get_alloc]
  split
  · exact hs
  · exact h id

theorem setProp_iff (id : SymbolId) (name : String) (t : SymbolId) :
    (b.setProp id name t).Lacks key ↔ b.Lacks key := by
  have hkey : ∀ s, ((b.setProp id name t).graph.get s).key? = (b.graph.get s).key? := by
    intro s
    rw [Symbol.key?, setProp_graph, SymbolGraph.kind_setProp, SymbolGraph.scalar_setProp]
    rfl
  simp only [Lacks, hkey]

theorem markExported (h : b.Lacks key) (id : SymbolId) : (b.markExported id).Lacks key := by
  intro s hs
  rw [Symbol.key?, markExported_graph, SymbolGraph.kind_markExported,
    SymbolGraph.scalar_markExported] at hs
  exact h s hs

end Lacks

/-- No property leads to the global scope. -/
structure HidesRoot (b : Bindings) : Prop where
  root_lt : root < b.graph.size
  prop?_ne : ∀ id key, b.graph.prop? id key ≠ some root

namespace HidesRoot

variable {b : Bindings} (h : b.HidesRoot)
include h

theorem alloc {s : Symbol} (hs : s.props = .empty) : (b.alloc s).2.HidesRoot where
  root_lt := Nat.lt_of_lt_of_le h.root_lt (Grows.alloc b s).size_le
  prop?_ne id key := by
    rw [alloc_graph, SymbolGraph.prop?_alloc b.graph hs]
    exact h.prop?_ne id key

theorem setProp {t : SymbolId} (ht : t ≠ root) (id : SymbolId) (key : String) :
    (b.setProp id key t).HidesRoot where
  root_lt := Nat.lt_of_lt_of_le h.root_lt (Grows.setProp b id key t).size_le
  prop?_ne n name := by
    rw [setProp_graph, SymbolGraph.prop?_setProp]
    split
    · exact fun hsome => ht (Option.some.inj hsome)
    · exact h.prop?_ne n name

theorem markExported (id : SymbolId) : (b.markExported id).HidesRoot where
  root_lt := Nat.lt_of_lt_of_le h.root_lt (Grows.markExported b id).size_le
  prop?_ne n key := by
    rw [markExported_graph, SymbolGraph.prop?_markExported]
    exact h.prop?_ne n key

omit h in
/-- Then the global scope is never found. -/
theorem knowledge : Knowledge HidesRoot fun _ s => s ≠ root where
  made := fun hb => Nat.ne_of_gt hb.root_lt
  found := fun hb hprop hroot => hb.prop?_ne _ _ (hroot ▸ hprop)
  kept := fun hs _ _ => hs

end HidesRoot

end Bindings

namespace Ast

/-- Storing at the node evaluates a key. -/
def hasDynamicKey (ast : Ast) (target : NodeId) : Bool :=
  match ast.node target with
  | .member _ property computed => ast.isDynamicKey property computed
  | _ => false

variable {ast : Ast} {target : NodeId}

theorem isMember_of_hasDynamicKey (h : ast.hasDynamicKey target = true) :
    (ast.node target).isMember = true := by
  rw [hasDynamicKey] at h
  cases hnode : ast.node target with
  | member _ _ _ => rfl
  | _ =>
      rw [hnode] at h
      contradiction

theorem mentioned_of_staticKey? {property : NodeId} {key : String}
    (h : ast.staticKey? property = some key) : key ∈ (ast.node property).mentioned := by
  rw [staticKey?] at h
  cases hnode : ast.node property with
  | identifier name =>
      rw [hnode] at h
      exact List.mem_singleton.2 (Option.some.inj h).symm
  | literal value =>
      rw [hnode] at h
      exact Option.mem_toList.2 h
  | _ =>
      rw [hnode] at h
      contradiction

/-- Storing at a node sets a name that is mentioned there, unless a key is evaluated to it. -/
theorem Stores.mentioned {b : Bindings} {name : String} (h : ast.Stores b target name)
    (hkey : ast.hasDynamicKey target = false ∨ b.Lacks name) :
    ∃ p, ast.Occurs target p ∧ name ∈ (ast.node p).mentioned := by
  have hname : ∀ {id : NodeId}, ast.node id = .identifier name →
      name ∈ (ast.node id).mentioned := by
    intro id hid
    simp [hid, Node.mentioned]
  cases h with
  | name hnode => exact ⟨target, .here, hname hnode⟩
  | @functionName id _ hnode hid =>
      exact ⟨id, .of_part (by simp [hnode, Node.references]), hname hid⟩
  | @className id body _ hnode hid =>
      exact ⟨id, .of_part (by simp [hnode, Node.references]), hname hid⟩
  | @member base property computed _ hnode hyields =>
      have hpart : ast.Occurs target property := .of_part (by simp [hnode, Node.references])
      cases hdynamic : ast.isDynamicKey property computed with
      | false =>
          rw [yields_of_static hdynamic] at hyields
          exact ⟨property, hpart, mentioned_of_staticKey? hyields⟩
      | true =>
          obtain ⟨s, hs⟩ := (yields_of_dynamic hdynamic b name).1 hyields
          rcases hkey with hstatic | hlacks
          · rw [hasDynamicKey, hnode] at hstatic
            exact absurd (hdynamic.symm.trans hstatic) Bool.noConfusion
          · exact absurd hs (hlacks s)

end Ast

/-! ### What changes leave alone -/

/-- A task ends by setting a global, under a key that it evaluates. -/
inductive Task.SetsGlobal (r : Resolver) (knows : Bindings → SymbolId → Prop) (name : String)
    (b₀ b : Bindings) : Task → Prop where
  | bind {levels : Nat} {target : NodeId} {value : Option NodeId} {scope : Option SymbolId}
      {s : SymbolId} {found : Bindings} : r.ast.hasDynamicKey target = true →
      r.Addresses levels target scope b₀ root name found → knows found root → ¬ b.Lacks name →
      r.bind levels target value scope b₀ = (some s, b) →
      SetsGlobal r knows name b₀ b (.bind levels target value scope)

namespace Change

variable {r : Resolver} {knows : Bindings → SymbolId → Prop} {wholes : List NodeId} {t : Task}
  {b₀ b b' : Bindings} {name : String} (h : Change r knows b₀ b t b')
include h

/-- Only a literal brings a new key. -/
theorem lacks (ht : t.Within r.ast wholes)
    (hliterals : ∀ n, r.ast.Within wholes n → (r.ast.node n).literalKey? ≠ some name)
    (hb : b.Lacks name) : b'.Lacks name := by
  cases h with
  | limit | report _ _ => exact hb
  | alloc hmakes =>
      refine hb.alloc ?_
      cases hmakes with
      | name _ hsimple => simp [ht.2] at hsimple
      | literal hnode =>
          have hkey := hliterals _ ht.1
          rwa [hnode] at hkey
      | _ => simp [Symbol.key?, Symbol.object, Symbol.placeholder]
  | fill _ _ _ | create _ _ _ _ _ _ _ | store _ _ _ _ _ _ | window _ _ _ _ _ _
  | storeDefault _ _ => exact (Bindings.Lacks.setProp_iff ..).2 hb
  | mark _ => exact hb.markExported _

omit h in
/-- What cannot be found cannot be stored. -/
theorem hidesRoot (h : Change r (fun _ s => s ≠ root) b₀ b t b') (hb : b.HidesRoot) :
    b'.HidesRoot := by
  cases h with
  | limit | report _ _ => exact ⟨hb.root_lt, hb.prop?_ne⟩
  | alloc hmakes => exact hb.alloc hmakes.props
  | fill _ _ hs | create _ _ _ _ _ _ hs | store _ _ _ _ hs _ | window _ _ _ _ _ hs
  | storeDefault _ hs => exact hb.setProp hs _ _
  | mark _ => exact hb.markExported _

/-- **A global whose name is not mentioned keeps its value** while nothing is declared, unless a key
is evaluated to the name. -/
theorem prop?_root_eq_or_setsGlobal (hkeys : r.keys = .direct) (ht : t.Within r.ast wholes)
    (hdeclares : t.declares = false) (hroot : root < b₀.graph.size)
    (hdefault : name ≠ Resolver.defaultExport)
    (hmentions : ∀ n, r.ast.Within wholes n → name ∉ (r.ast.node n).mentioned) :
    b'.graph.prop? root name = b.graph.prop? root name ∨ t.SetsGlobal r knows name b₀ b' := by
  -- A property is set, but not that of the globals under the name.
  have hother : ∀ {owner s : SymbolId} {key : String}, (owner = root → key ≠ name) →
      (b.setProp owner key s).graph.prop? root name = b.graph.prop? root name := by
    intro owner s key hne
    rw [Bindings.setProp_graph, SymbolGraph.prop?_setProp, if_neg]
    rintro ⟨⟨rfl, -⟩, rfl⟩
    exact hne rfl rfl
  cases h with
  | limit | report _ _ => exact .inl rfl
  | alloc hmakes => exact .inl (SymbolGraph.prop?_alloc b.graph hmakes.props root name)
  | fill _ _ _ => exact .inl (hother fun hsize => absurd hsize (Nat.ne_of_gt hroot))
  | create hcreate _ _ _ _ _ _ => simp [ht.2] at hcreate
  | @store _ target _ _ owner _ key _ haddress _ howner hstores _ hbind =>
      by_cases hset : owner = root ∧ key = name
      · obtain ⟨rfl, rfl⟩ := hset
        by_cases hkey : r.ast.hasDynamicKey target = false ∨ b.Lacks key
        · obtain ⟨p, hp, hmentioned⟩ := (hstores hkeys).mentioned hkey
          exact absurd hmentioned (hmentions p (ht.1.within.occurs hp))
        · obtain ⟨hdynamic, hlacks⟩ := not_or.1 hkey
          have hdynamic : r.ast.hasDynamicKey target = true := by simpa using hdynamic
          exact .inr (.bind hdynamic haddress (howner (Ast.isMember_of_hasDynamicKey hdynamic))
            (fun hset => hlacks ((Bindings.Lacks.setProp_iff ..).1 hset)) hbind)
      · exact .inl (hother fun hroot hname => hset ⟨hroot, hname⟩)
  | window _ _ _ _ _ _ => contradiction
  | storeDefault _ _ => exact .inl (hother fun _ hname => hdefault hname.symm)
  | mark _ => exact .inl (SymbolGraph.prop?_markExported ..)

end Change

end ExportSurface

/-
Two resolvers that mirror each other.

Two resolvers are followed side by side from mirrored states (`Bindings.Mirrors`).  They may belong
to different trees that agree on the nodes in question, the states may differ in globals that these
nodes do not name, and the second resolver may resolve the keys that the first one reads off the
tree.  All of this is one walk through resolving, binding and both passes.

Names are looked up and stored in the global scope throughout both passes, and so only scopes that
stand for the global scope are considered.

Main definitions:

* `Resolver.Alike` — two resolvers that read the nodes of a set alike;
* `Resolver.Mirrored` — they find corresponding symbols and end in mirrored states;
* `Resolver.bindStatements` — both passes over a list of statements.

Main results:

* `Resolver.memberKey?_ends_mirrored` — **a key that is resolved is the key that is read off the
  tree**;
* `Resolver.resolveNode_reflects`, `Resolver.bindWith_reflects` — one level of resolving and
  binding;
* `Resolver.resolve_mirrored` — all levels, if both resolvers read keys off their trees;
* `Resolver.declareThrough_stays`, `Resolver.assignThrough_stays`,
  `Resolver.bindStatements_stays` — **either pass, and both**.
-/

import ExportSurface.Proofs.Changes
import ExportSurface.Proofs.MemberChains
import ExportSurface.Proofs.Mirrors

set_option autoImplicit false

namespace ExportSurface

open SymbolGraph (root)

/-! ### Two resolvers -/

/-- A name or a literal, which is a key by itself. -/
def Node.isPlainKey : Node → Bool
  | .identifier _ | .literal _ => true
  | _ => false

/-- The property of every plain member access is a name or a literal. -/
def Ast.PlainKeys (ast : Ast) : Prop :=
  ∀ id base property, ast.node id = .member base property false →
    (ast.node property).isPlainKey = true

namespace Resolver

/-- Two resolvers whose trees agree on a set of nodes, which contains the parts of its nodes and
names no hidden entry.  The first reads keys off its tree; if the second resolves them, then nothing
is hidden and plain accesses have plain keys. -/
structure Alike (hidden : List String) (S : NodeId → Prop) (r r' : Resolver) : Prop where
  closed : ∀ id, S id → ∀ p ∈ (r.ast.node id).references, S p
  node_eq : ∀ id, S id → r'.ast.node id = r.ast.node id
  visible : ∀ id, S id → ∀ name ∈ (r.ast.node id).mentioned, name ∉ hidden
  prototype_visible : "prototype" ∉ hidden
  default_visible : defaultExport ∉ hidden
  direct : r.keys = .direct
  resolved : r'.keys = .resolved → hidden = [] ∧ r.ast.PlainKeys

/-- Two resolvers for single expressions find corresponding symbols from mirrored states. -/
def Mirrored (hidden : List String) (recur recur' : Resolve) (S : NodeId → Prop) : Prop :=
  ∀ id, S id → ∀ scope : Option SymbolId, scope.getD root = root → ∀ ρ b b',
    Bindings.Mirrors ρ hidden b b' →
    Bindings.Reflects ρ hidden b (recur id scope {} b) (recur' id scope {} b')

namespace Alike

variable {hidden : List String} {S : NodeId → Prop} {r r' : Resolver}

/-- If nothing is hidden, then nothing is to be said about names. -/
theorem of_no_hidden (hclosed : ∀ id, S id → ∀ p ∈ (r.ast.node id).references, S p)
    (hnode : ∀ id, S id → r'.ast.node id = r.ast.node id) (hkeys : r.keys = .direct)
    (hplain : r'.keys = .resolved → r.ast.PlainKeys) : Alike [] S r r' where
  closed := hclosed
  node_eq := hnode
  visible := fun _ _ _ _ => List.not_mem_nil
  prototype_visible := List.not_mem_nil
  default_visible := List.not_mem_nil
  direct := hkeys
  resolved := fun hresolved => ⟨rfl, hplain hresolved⟩

variable (h : Alike hidden S r r') {id : NodeId} (hid : S id)
include h hid

theorem identifierName?_eq : r'.ast.identifierName? id = r.ast.identifierName? id := by
  rw [Ast.identifierName?, Ast.identifierName?, h.node_eq id hid]

theorem staticKey?_eq : r'.ast.staticKey? id = r.ast.staticKey? id := by
  rw [Ast.staticKey?, Ast.staticKey?, h.node_eq id hid]

theorem describeKey_eq (key : Option String) : r'.describeKey id key = r.describeKey id key := by
  rw [describeKey, describeKey, h.identifierName?_eq hid, h.node_eq id hid]

theorem memberPath?_eq : r'.ast.memberPath? id = r.ast.memberPath? id :=
  Ast.memberPath?_congr h.closed h.node_eq hid

theorem identifier_visible {name : String} (hnode : r.ast.node id = .identifier name) :
    name ∉ hidden :=
  h.visible id hid name (by simp [hnode, Node.mentioned])

theorem literal_visible {value : Literal} (hnode : r.ast.node id = .literal value) (key : String)
    (hkey : value.key? = some key) : key ∉ hidden :=
  h.visible id hid key (by simp [hnode, Node.mentioned, hkey])

theorem staticKey_visible {key : String} (hkey : r.ast.staticKey? id = some key) :
    key ∉ hidden := by
  rw [Ast.staticKey?] at hkey
  split at hkey
  · next hnode => exact h.identifier_visible hid (Option.some.inj hkey ▸ hnode)
  · next hnode => exact h.literal_visible hid hnode key hkey
  · contradiction

omit hid in
theorem entryKey?_eq {entry : Entry} (hkey : S entry.key) :
    r'.ast.entryKey? entry = r.ast.entryKey? entry := by
  rw [Ast.entryKey?, Ast.entryKey?, h.staticKey?_eq hkey]

omit hid in
theorem entryKey_visible {entry : Entry} (hentry : S entry.key) {key : String}
    (hkey : r.ast.entryKey? entry = some key) : key ∉ hidden := by
  rw [Ast.entryKey?, Option.ite_none_left_eq_some] at hkey
  exact h.staticKey_visible hentry hkey.2

end Alike

section level

variable {hidden : List String} {r r' : Resolver} {S : NodeId → Prop} {recur recur' : Resolve}
  {ρ : SymbolId → SymbolId} {b b' : Bindings} {scope : Option SymbolId}

/-! ### One level of resolving -/

theorem resolveIdentifier_reflects (h : b.Mirrors ρ hidden b') (hscope : scope.getD root = root)
    {name : String} (hname : name ∉ hidden) :
    Bindings.Reflects ρ hidden b (resolveIdentifier name scope {} b)
      (resolveIdentifier name scope {} b') := by
  have hlookup : ∀ g, lookup g scope name = g.prop? root name := by
    intro g
    rw [lookup, hscope]
    exact Option.or_self
  have hglobal := h.prop?_eq root name hname
  rw [h.map_root] at hglobal
  refine ⟨ρ, .refl, ?_, ?_, h⟩
  · exact (hlookup _).trans (hglobal.trans (congrArg (Option.map ρ) (hlookup _).symm))
  · intro s hs
    exact h.finds_of_prop? ((hlookup _).symm.trans hs)

theorem functionSymbol_reflects (hprototype : "prototype" ∉ hidden) (h : b.Mirrors ρ hidden b')
    (id : NodeId) :
    Bindings.Reflects ρ hidden b (some (functionSymbol id b).1, (functionSymbol id b).2)
      (some (functionSymbol id b').1, (functionSymbol id b').2) := by
  obtain ⟨f, c₁, c₁', hout₁, hout₁', hf, hlong₁, hc₁⟩ :=
    h.alloc_plain_ends (.object (some id)) rfl rfl
  obtain ⟨p, c₂, c₂', hout₂, hout₂', hp, hlong₂, hc₂⟩ :=
    hc₁.alloc_plain_ends (.object none) rfl rfl
  have hfilled : Bindings.Stays ρ hidden c₁ (c₂.setProp f "prototype" p)
      (c₂'.setProp (ρ f) "prototype" (ρ p)) := ⟨ρ, hlong₂.setProp .., hc₂.setProp hprototype hp⟩
  simp only [functionSymbol, hout₁, hout₁', hout₂, hout₂']
  exact hfilled.found hlong₁ hf

variable (halike : Alike hidden S r r')
include halike

/-- The methods of a class body are added to corresponding symbols. -/
theorem addMethods_stays {methods : List Entry} (hkeys : ∀ m ∈ methods, S m.key)
    {owner : SymbolId} (howner : b.Finds hidden owner) (h : b.Mirrors ρ hidden b') :
    Bindings.Stays ρ hidden b (r.addMethods owner methods b)
      (r'.addMethods (ρ owner) methods b') := by
  refine Bindings.Stays.foldl ?_ h.stays
  intro m hm ρ₁ e e' hlong he
  rw [halike.entryKey?_eq (hkeys m hm)]
  cases hkey : r.ast.entryKey? m with
  | none => exact he.stays
  | some key =>
      obtain ⟨s, c, c', hout, hout', hs, hlong', hc⟩ :=
        he.alloc_plain_ends (.object (some m.value)) rfl rfl
      simp only [hout, hout', ← hlong.map_eq owner howner.1]
      have hvisible := halike.entryKey_visible (hkeys m hm) hkey
      exact ⟨ρ₁, hlong'.setProp .., hc.setProp hvisible hs⟩

variable (hrec : Mirrored hidden recur recur' S)
include hrec

omit halike in
theorem resolvedKey?_ends_mirrored {property : NodeId} (hproperty : S property)
    (hscope : scope.getD root = root) (h : b.Mirrors ρ hidden b') :
    ∃ ρ' key c c', resolvedKey? recur property scope {} b = (key, c) ∧
      resolvedKey? recur' property scope {} b' = (key, c') ∧ (∀ x, key = some x → x ∉ hidden) ∧
      Bindings.Prolongs ρ ρ' b c ∧ c.Mirrors ρ' hidden c' := by
  obtain ⟨ρ', s, c, c', hout, hout', hlong, -, hc⟩ :=
    (hrec property hproperty scope hscope ρ b b' h).ends
  rw [resolvedKey?, resolvedKey?, hout, hout']
  cases s with
  | none => exact ⟨ρ', none, c, c', rfl, rfl, by simp, hlong, hc⟩
  | some s =>
      have hkey : ((c'.graph.get (ρ' s)).key?, c') = ((c.graph.get s).key?, c') := by
        rw [hc.key?_eq s]
      exact ⟨ρ', (c.graph.get s).key?, c, c', rfl, hkey, hc.key_visible s, hlong, hc⟩

theorem addProperties_stays {properties : List Entry}
    (hparts : ∀ p ∈ properties, S p.key ∧ S p.value) (hscope : scope.getD root = root)
    {owner : SymbolId} (howner : b.Finds hidden owner) (h : b.Mirrors ρ hidden b') :
    Bindings.Stays ρ hidden b (r.addProperties recur scope {} owner properties b)
      (r'.addProperties recur' scope {} (ρ owner) properties b') := by
  refine Bindings.Stays.foldl ?_ h.stays
  intro p hp ρ₁ e e' hlong he
  obtain ⟨hentry, hvalue⟩ := hparts p hp
  rw [halike.entryKey?_eq hentry]
  cases hkey : r.ast.entryKey? p with
  | none => exact he.stays
  | some key =>
      obtain ⟨ρ₂, s, c, c', hout, hout', hlong', hs, hc⟩ :=
        (hrec p.value hvalue scope hscope ρ₁ e e' he).ends
      simp only [hout, hout', ← (hlong.trans hlong').map_eq owner howner.1]
      cases s with
      | none => exact ⟨ρ₂, hlong', hc⟩
      | some s =>
          have hvisible := halike.entryKey_visible hentry hkey
          exact ⟨ρ₂, hlong'.setProp .., hc.setProp hvisible (hs s rfl)⟩

-- A resolver that resolves keys has a level left for them.
variable (hnext : r'.keys = .resolved → ∃ next, recur' = r'.resolveNode next)
include hnext

/-- **A key that is resolved is the key that is read off the tree.**  Resolving it leaves a literal
behind. -/
theorem memberKey?_ends_mirrored {property : NodeId} (hproperty : S property) {computed : Bool}
    (hplain : r'.keys = .resolved → computed = false →
      (r.ast.node property).isPlainKey = true) (hscope : scope.getD root = root)
    (h : b.Mirrors ρ hidden b') :
    ∃ ρ' key c c', r.memberKey? recur property computed scope b = (key, c) ∧
      r'.memberKey? recur' property computed scope b' = (key, c') ∧
      (∀ x, key = some x → x ∉ hidden) ∧ Bindings.Prolongs ρ ρ' b c ∧ c.Mirrors ρ' hidden c' := by
  have hdynamic := resolvedKey?_ends_mirrored hrec hproperty hscope h
  have hnode := halike.node_eq property hproperty
  rw [memberKey?, memberKey?, halike.direct]
  cases hkeys : r'.keys with
  | direct =>
      rw [hnode]
      cases hread : r.ast.node property with
      | identifier name =>
          cases computed with
          | true => exact hdynamic
          | false =>
              refine ⟨ρ, some name, b, b', rfl, rfl, ?_, .refl, h⟩
              rintro _ ⟨rfl⟩
              exact halike.identifier_visible hproperty hread
      | literal value =>
          exact ⟨ρ, value.key?, b, b', rfl, rfl, halike.literal_visible hproperty hread, .refl, h⟩
      | _ => exact hdynamic
  | resolved =>
      obtain ⟨next, rfl⟩ := hnext hkeys
      obtain ⟨rfl, -⟩ := halike.resolved hkeys
      cases hread : r.ast.node property with
      | identifier name =>
          cases computed with
          | true => exact hdynamic
          | false =>
              obtain ⟨hlong, hskip⟩ := h.skip (s := .literal none (some name)) rfl rfl
              refine ⟨_, some name, b, _, rfl, ?_, fun _ _ => List.not_mem_nil, hlong, hskip⟩
              simp only [resolvedKey?, resolveNode, hnode, hread, resolveIdentifier, Bool.not_false,
                if_true, Bindings.get_alloc_self]
              rfl
      | literal value =>
          obtain ⟨hlong, hskip⟩ := h.skip (s := .literal (some property) value.key?) rfl rfl
          refine ⟨_, value.key?, b, _, rfl, ?_, fun _ _ => List.not_mem_nil, hlong, hskip⟩
          simp only [resolvedKey?, resolveNode, hnode, hread, Bindings.get_alloc_self]
          rfl
      | _ =>
          cases computed with
          | true => exact hdynamic
          | false =>
              have hkey := hplain hkeys rfl
              rw [hread] at hkey
              contradiction

theorem resolveMember_reflects {base property : NodeId} (hbase : S base) (hproperty : S property)
    {computed : Bool} (hplain : r'.keys = .resolved → computed = false →
      (r.ast.node property).isPlainKey = true) (id : NodeId) (hscope : scope.getD root = root)
    (h : b.Mirrors ρ hidden b') :
    Bindings.Reflects ρ hidden b (r.resolveMember recur id base property computed scope {} b)
      (r'.resolveMember recur' id base property computed scope {} b') := by
  obtain ⟨ρ₁, owner, c₁, c₁', hout₁, hout₁', hlong₁, hlt, hc₁⟩ :=
    (hrec base hbase scope hscope ρ b b' h).ends
  obtain ⟨ρ₂, key, c₂, c₂', hout₂, hout₂', hkey, hlong₂, hc₂⟩ :=
    memberKey?_ends_mirrored halike hrec hnext hproperty hplain hscope hc₁
  have hlong := hlong₁.trans hlong₂
  have hmissing : ∀ key, Bindings.Reflects ρ hidden b (r.reportMissing id property key c₂)
      (r'.reportMissing id property key c₂') := by
    intro key
    rw [reportMissing, reportMissing, halike.describeKey_eq hproperty]
    exact (hc₂.report _).nothing (hlong.report _)
  rw [resolveMember, resolveMember]
  simp only [hout₁, hout₁', hout₂, hout₂', ← hlong₂.map_found hlt]
  cases owner with
  | none => exact hmissing key
  | some owner =>
      cases key with
      | none => exact hmissing none
      | some name =>
          have hmember : c₂'.graph.member? (ρ₂ owner) name = (c₂.graph.member? owner name).map ρ₂ :=
            hc₂.member?_eq owner (hkey name rfl)
          simp only [Option.map_some, hmember]
          cases hfound : c₂.graph.member? owner name with
          | none => exact hmissing (some name)
          | some existing =>
              rw [SymbolGraph.member?, Option.ite_none_right_eq_some] at hfound
              exact hc₂.found hlong (hc₂.finds_of_prop? hfound.2)

/-! ### One level of binding -/

omit halike hnext in
theorem bindName_reflects (target : NodeId) {name : String} (hname : name ∉ hidden)
    {value : Option NodeId} (hvalue : ∀ v, value = some v → S v) (h : b.Mirrors ρ hidden b') :
    Bindings.Reflects ρ hidden b (bindName recur target name value root b)
      (bindName recur' target name value root b') := by
  cases value with
  | some v =>
      obtain ⟨ρ', s, c, c', hout, hout', hlong, hs, hc⟩ :=
        (hrec v (hvalue v rfl) (some root) rfl ρ b b' h).ends
      rw [bindName, bindName, hout, hout']
      cases s with
      | none => exact (hc.report _).nothing (hlong.report _)
      | some s => exact hc.stored_root hlong (hs s rfl) hname
  | none =>
      obtain ⟨s, c, c', hout, hout', hs, hlong, hc⟩ := h.alloc_plain_ends .placeholder rfl rfl
      rw [bindName, bindName, hout, hout']
      exact hc.stored_root hlong hs hname

theorem bindMember_reflects {target base property : NodeId} (htarget : S target) (hbase : S base)
    (hproperty : S property) {computed : Bool} (hplain : r'.keys = .resolved → computed = false →
      (r.ast.node property).isPlainKey = true) {value : Option NodeId}
    (hvalue : ∀ v, value = some v → S v) (h : b.Mirrors ρ hidden b') :
    Bindings.Reflects ρ hidden b (r.bindMember recur target base property computed value root b)
      (r'.bindMember recur' target base property computed value root b') := by
  have hscope : (some root).getD root = root := rfl
  obtain ⟨ρ₁, owner, c₁, c₁', hout₁, hout₁', hlong₁, hlt, hc₁⟩ :=
    (hrec base hbase (some root) hscope ρ b b' h).ends
  obtain ⟨ρ₂, key, c₂, c₂', hout₂, hout₂', hkey, hlong₂, hc₂⟩ :=
    memberKey?_ends_mirrored halike hrec hnext hproperty hplain hscope hc₁
  have hlong := hlong₁.trans hlong₂
  have hfilter : ((owner.map ρ₁).filter fun s => (c₁'.graph.get s).hasMembers) =
      (owner.filter fun s => (c₁.graph.get s).hasMembers).map ρ₂ := by
    rw [← hlong₂.map_found hlt]
    cases owner with
    | none => rfl
    | some owner =>
        simp only [Option.map_some, Option.filter_some, hlong₂.map_eq owner (hlt owner rfl).1,
          hc₁.hasMembers_eq owner]
        split
        · rw [Option.map_some, hlong₂.map_eq owner (hlt owner rfl).1]
        · rfl
  have hbound : ∀ t, (owner.filter fun s => (c₁.graph.get s).hasMembers) = some t →
      t < c₂.graph.size := by
    intro t ht
    exact Nat.lt_of_lt_of_le (hlt t (Option.filter_eq_some_iff.1 ht).1).1 hlong₂.size_le
  rw [bindMember, bindMember, halike.memberPath?_eq htarget]
  simp only [hout₁, hout₁', hout₂, hout₂', hfilter]
  generalize (owner.filter fun s => (c₁.graph.get s).hasMembers) = owner at hbound ⊢
  cases owner with
  | none => exact (hc₂.report _).nothing (hlong.report _)
  | some owner =>
      cases key with
      | none => exact (hc₂.report _).nothing (hlong.report _)
      | some key =>
          cases value with
          | none => exact (hc₂.report _).nothing (hlong.report _)
          | some v =>
              obtain ⟨ρ₃, s, c₃, c₃', hout₃, hout₃', hlong₃, hs, hc₃⟩ :=
                (hrec v (hvalue v rfl) (some root) rfl ρ₂ c₂ c₂' hc₂).ends
              simp only [Option.map_some, hout₃, hout₃', ← hlong₃.map_eq owner (hbound owner rfl)]
              cases s with
              | none => exact (hc₃.report _).nothing ((hlong.trans hlong₃).report _)
              | some s => exact hc₃.stored (hlong.trans hlong₃) (hs s rfl) owner (hkey key rfl)

omit hnext in
/-- A named function or class is stored among the globals. -/
theorem bindGlobal_reflects {id v : NodeId} (hid : S id) (hv : S v) (h : b.Mirrors ρ hidden b') :
    Bindings.Reflects ρ hidden b
      (match r.ast.node id with
        | .identifier name => bindName recur id name (some v) root b
        | _ => (none, b))
      (match r'.ast.node id with
        | .identifier name => bindName recur' id name (some v) root b'
        | _ => (none, b')) := by
  rw [halike.node_eq id hid]
  cases hnode : r.ast.node id with
  | identifier name =>
      refine bindName_reflects hrec id (halike.identifier_visible hid hnode) ?_ h
      rintro _ ⟨rfl⟩
      exact hv
  | _ => exact h.nothing .refl

theorem bindWith_reflects {target : NodeId} (htarget : S target) {value : Option NodeId}
    (hvalue : ∀ v, value = some v → S v) (hscope : scope.getD root = root)
    (h : b.Mirrors ρ hidden b') :
    Bindings.Reflects ρ hidden b (r.bindWith recur target value scope b)
      (r'.bindWith recur' target value scope b') := by
  have hpart := halike.closed target htarget
  rw [bindWith, bindWith, halike.node_eq target htarget, hscope]
  cases hnode : r.ast.node target with
  | classDeclaration id body =>
      cases id with
      | none => exact h.nothing .refl
      | some id =>
          exact bindGlobal_reflects halike hrec (hpart id (by simp [hnode, Node.references]))
            (hpart body (by simp [hnode, Node.references])) h
  | functionDeclaration id =>
      cases id with
      | none => exact h.nothing .refl
      | some id =>
          exact bindGlobal_reflects halike hrec (hpart id (by simp [hnode, Node.references]))
            htarget h
  | identifier name =>
      exact bindName_reflects hrec target (halike.identifier_visible htarget hnode) hvalue h
  | member base property computed =>
      refine bindMember_reflects halike hrec hnext htarget
        (hpart base (by simp [hnode, Node.references]))
        (hpart property (by simp [hnode, Node.references])) ?_ hvalue h
      rintro hkeys rfl
      exact (halike.resolved hkeys).2 target base property hnode
  | _ => exact h.nothing .refl

/-- One level of resolving, for a node that the trees agree on, that names nothing hidden, and whose
parts are in the set. -/
theorem resolveNode_reflects {id : NodeId} (hid : r'.ast.node id = r.ast.node id)
    (hvisible : ∀ name ∈ (r.ast.node id).mentioned, name ∉ hidden)
    (hpart : ∀ p ∈ (r.ast.node id).references, S p) (hscope : scope.getD root = root)
    (h : b.Mirrors ρ hidden b') :
    Bindings.Reflects ρ hidden b (r.resolveNode recur id scope {} b)
      (r'.resolveNode recur' id scope {} b') := by
  have hfunction := functionSymbol_reflects halike.prototype_visible h id
  rw [resolveNode, resolveNode, hid]
  cases hnode : r.ast.node id with
  | identifier name =>
      exact resolveIdentifier_reflects h hscope (hvisible name (by simp [hnode, Node.mentioned]))
  | member base property computed =>
      refine resolveMember_reflects halike hrec hnext
        (hpart base (by simp [hnode, Node.references]))
        (hpart property (by simp [hnode, Node.references])) ?_ id hscope h
      rintro hkeys rfl
      exact (halike.resolved hkeys).2 id base property hnode
  | classDeclaration _ _ => exact hfunction
  | functionDeclaration _ => exact hfunction
  | functionExpression _ => exact hfunction
  | arrowFunction => exact hfunction
  | assignment target value =>
      refine bindWith_reflects halike hrec hnext (hpart target (by simp [hnode, Node.references]))
        ?_ hscope h
      rintro _ ⟨rfl⟩
      exact hpart value (by simp [hnode, Node.references])
  | classBody methods =>
      have hkeys : ∀ m ∈ methods, S m.key := by
        intro m hm
        refine hpart m.key ?_
        rw [hnode]
        exact List.mem_flatMap.2 ⟨m, hm, by simp⟩
      obtain ⟨s, c, c', hout, hout', hs, hlong, hc⟩ :=
        h.alloc_plain_ends (.object (some id)) rfl rfl
      simp only [hout, hout']
      exact (addMethods_stays halike hkeys hs hc).found hlong hs
  | object properties =>
      have hparts : ∀ p ∈ properties, S p.key ∧ S p.value := by
        intro p hp
        rw [hnode] at hpart
        exact ⟨hpart p.key (List.mem_flatMap.2 ⟨p, hp, by simp⟩),
          hpart p.value (List.mem_flatMap.2 ⟨p, hp, by simp⟩)⟩
      obtain ⟨s, c, c', hout, hout', hs, hlong, hc⟩ :=
        h.alloc_plain_ends (.object (some id)) rfl rfl
      simp only [hout, hout']
      exact (addProperties_stays halike hrec hparts hscope hs hc).found hlong hs
  | literal value =>
      obtain ⟨s, c, c', hout, hout', hs, hlong, hc⟩ :=
        h.alloc_ends (.literal (some id) value.key?) rfl fun key hkey =>
          hvisible key (by simp [hnode, Node.mentioned, show value.key? = some key from hkey])
      simp only [hout, hout']
      exact hc.found hlong hs
  | _ => exact (h.report _).nothing (Bindings.Prolongs.refl.report _)

end level

/-- If both resolvers read keys off their trees, then they mirror each other at every depth. -/
theorem resolve_mirrored {hidden : List String} {r r' : Resolver} {S : NodeId → Prop}
    (halike : Alike hidden S r r') (hkeys : r'.keys = .direct) (levels : Nat) :
    Mirrored hidden (r.resolve levels) (r'.resolve levels) S := by
  induction levels with
  | zero =>
      intro id _ scope _ ρ b b' h
      exact (h.report _).nothing (Bindings.Prolongs.refl.report _)
  | succ levels ih =>
      intro id hid scope hscope ρ b b' h
      refine resolveNode_reflects halike ih ?_ (halike.node_eq id hid) (halike.visible id hid)
        (halike.closed id hid) hscope h
      intro hresolved
      rw [hkeys] at hresolved
      contradiction

/-! ### Both passes -/

/-- Both passes over some statements, each through at most `fuel` enclosing statements. -/
def bindStatements (r : Resolver) (fuel : Nat) (statements : List NodeId) (b : Bindings) :
    Bindings :=
  statements.foldl (fun b x => r.assignThrough fuel x b)
    (statements.foldl (fun b x => r.declareThrough fuel x b) b)

theorem bindModule_eq_bindStatements {r : Resolver} {body : List NodeId}
    (hbody : r.ast.node r.ast.program = .program body) (b : Bindings) :
    r.bindModule b = r.bindStatements r.ast.program body b := by
  rw [bindModule, assign, assignThrough, declare, declareThrough, hbody]
  rfl

section passes

variable {hidden : List String} {r r' : Resolver} {S : NodeId → Prop} {ρ : SymbolId → SymbolId}
  {b b' : Bindings}

/-- A name that is bound without a value holds what the binding answers. -/
theorem prop?_of_bind_name {target : NodeId} {name : String}
    (hname : r.ast.identifierName? target = some name) {levels : Nat} {s : SymbolId}
    {c : Bindings} (hroot : root < b.graph.size)
    (hout : r.bind levels target none (some root) b = (some s, c)) :
    c.graph.prop? root name = some s := by
  rw [Ast.identifierName?] at hname
  split at hname
  · next hnode =>
      obtain rfl := Option.some.inj hname
      rw [bind, bindWith, hnode] at hout
      have hs : b.graph.size = s := Option.some.inj (congrArg Prod.fst hout)
      have hc : (b.alloc .placeholder).2.setProp root _ b.graph.size = c := congrArg Prod.snd hout
      have hroot' : root < (b.alloc .placeholder).2.graph.size := by
        rw [Bindings.alloc_graph, SymbolGraph.size_alloc]
        exact Nat.lt_succ_of_lt hroot
      rw [← hc, ← hs, Bindings.setProp_graph, SymbolGraph.prop?_setProp,
        if_pos ⟨⟨rfl, hroot'⟩, rfl⟩]
  · contradiction

variable (halike : Alike hidden S r r')
  (hrec : Mirrored hidden (r.resolve maxNesting) (r'.resolve maxNesting) S)
include halike hrec

theorem bind_reflects {target : NodeId} (htarget : S target) (value : Option NodeId)
    (hvalue : ∀ v, value = some v → S v) {scope : Option SymbolId}
    (hscope : scope.getD root = root) (h : b.Mirrors ρ hidden b') :
    Bindings.Reflects ρ hidden b (r.bind maxNesting target value scope b)
      (r'.bind maxNesting target value scope b') :=
  bindWith_reflects halike hrec (fun _ => ⟨_, rfl⟩) htarget hvalue hscope h

/-- The alias `window` of the second state may be hidden from the first.  Then it stands for the
global scope, and sets there what is set already. -/
theorem declareVariable_stays (kind : DeclarationKind) {d : Declarator} (htarget : S d.target)
    (h : b.Mirrors ρ hidden b') :
    Bindings.Stays ρ hidden b (r.declareVariable kind b d) (r'.declareVariable kind b' d) := by
  have hscope : (some root).getD root = root := rfl
  obtain ⟨ρ', s, c, c', hout, hout', hlong, hs, hc⟩ :=
    (bind_reflects halike hrec htarget none (by simp) hscope h).ends
  have hdone : Bindings.Stays ρ hidden b c c' := ⟨ρ', hlong, hc⟩
  rw [declareVariable, declareVariable, hout, hout', halike.identifierName?_eq htarget]
  cases kind.isGlobal with
  | false => exact hdone
  | true =>
      cases s with
      | none => exact hdone
      | some s =>
          cases hname : r.ast.identifierName? d.target with
          | none =>
              dsimp only [Option.map_some]
              cases c.graph.window? <;> cases c'.graph.window? <;> exact hdone
          | some name =>
              have hvisible : name ∉ hidden := by
                rw [Ast.identifierName?] at hname
                split at hname
                · next hnode =>
                    exact halike.identifier_visible htarget (Option.some.inj hname ▸ hnode)
                · contradiction
              by_cases hhidden : "window" ∈ hidden
              · have hnone : c.graph.window? = none := hc.prop?_hidden root "window" hhidden
                simp only [hnone, Option.map_some]
                cases hwindow : c'.graph.window? with
                | none => exact hdone
                | some w =>
                    have hmapped : c'.graph.prop? (ρ' root) "window" = some w := by
                      rw [hc.map_root]
                      exact hwindow
                    obtain rfl := (hc.seeded root "window" w hhidden hmapped).2.1 rfl
                    have hbound := hc.prop?_eq root name hvisible
                    rw [prop?_of_bind_name hname h.root_lt hout, hc.map_root] at hbound
                    exact ⟨ρ', hlong, hc.setProp_same hbound⟩
              · have hwindow := hc.prop?_eq root "window" hhidden
                rw [hc.map_root] at hwindow
                have hmapped : c'.graph.window? = c.graph.window?.map ρ' := hwindow
                simp only [hmapped, Option.map_some]
                cases c.graph.window? with
                | none => exact hdone
                | some w => exact ⟨ρ', hlong.setProp .., hc.setProp hvisible (hs s rfl)⟩

/-- The declaration pass from a node that the trees agree on and whose parts are in the set. -/
theorem declareThrough_stays (fuel : Nat) {id : NodeId} (hid : r'.ast.node id = r.ast.node id)
    (hpart : ∀ p ∈ (r.ast.node id).references, S p) (h : b.Mirrors ρ hidden b') :
    Bindings.Stays ρ hidden b (r.declareThrough fuel id b) (r'.declareThrough fuel id b') := by
  induction fuel generalizing id ρ b b' with
  | zero => exact h.stays
  | succ fuel ih =>
      have hnext : ∀ p ∈ (r.ast.node id).references, ∀ ρ (e e' : Bindings),
          e.Mirrors ρ hidden e' →
          Bindings.Stays ρ hidden e (r.declareThrough fuel p e) (r'.declareThrough fuel p e') := by
        intro p hp ρ e e' he
        exact ih (halike.node_eq p (hpart p hp)) (halike.closed p (hpart p hp)) he
      rw [declareThrough, declareThrough, hid]
      cases hnode : r.ast.node id with
      | program body =>
          refine Bindings.Stays.foldl ?_ h.stays
          intro p hp ρ e e' _ he
          exact hnext p (hnode ▸ hp) ρ e e' he
      | expressionStatement expression =>
          exact hnext expression (by simp [hnode, Node.references]) ρ b b' h
      | variableDeclaration kind declarators =>
          refine Bindings.Stays.foldl ?_ h.stays
          intro d hd ρ e e' _ he
          refine declareVariable_stays halike hrec kind (hpart d.target ?_) he
          rw [hnode]
          exact List.mem_flatMap.2 ⟨d, hd, by simp⟩
      | exportNamed declaration specifiers =>
          cases declaration with
          | none => exact h.stays
          | some d => exact hnext d (by simp [hnode, Node.references]) ρ b b' h
      | _ => exact h.stays

theorem bindDeclarators_ends_mirrored {declarators : List Declarator}
    (hpart : ∀ p ∈ declarators.flatMap fun d => d.target :: d.init.toList, S p)
    (h : b.Mirrors ρ hidden b') :
    ∃ ρ' stored c c', r.bindDeclarators declarators b = (stored, c) ∧
      r'.bindDeclarators declarators b' = (stored.map ρ', c') ∧
      (∀ s ∈ stored, c.Finds hidden s) ∧ Bindings.Prolongs ρ ρ' b c ∧ c.Mirrors ρ' hidden c' := by
  induction declarators generalizing ρ b b' with
  | nil => exact ⟨ρ, [], b, b', rfl, rfl, fun _ hs => absurd hs List.not_mem_nil, .refl, h⟩
  | cons d rest ih =>
      rw [List.flatMap_cons] at hpart
      have hscope : (none : Option SymbolId).getD root = root := rfl
      obtain ⟨ρ₁, s, c, c', hout, hout', hlong, hs, hc⟩ :=
        (bind_reflects halike hrec (hpart d.target (by simp)) d.init
          (fun v hv => hpart v (by simp [hv])) hscope h).ends
      obtain ⟨ρ₂, stored, e, e', hrest, hrest', hstored, hlong₂, he⟩ :=
        ih (fun p hp => hpart p (List.mem_append_right _ hp)) hc
      refine ⟨ρ₂, s.toList ++ stored, e, e', ?_, ?_, ?_, hlong.trans hlong₂, he⟩
      · rw [bindDeclarators, hout]
        simp only [hrest]
      · rw [bindDeclarators, hout']
        simp only [hrest', List.map_append, ← hlong₂.map_found hs]
        cases s <;> rfl
      · intro t ht
        rcases List.mem_append.1 ht with ht | ht
        · exact (hs t (Option.mem_toList.1 ht)).mono hlong₂.size_le
        · exact hstored t ht

/-- An exported declaration is bound to itself. -/
theorem bind_self_reflects {d : NodeId} (hd : S d) (h : b.Mirrors ρ hidden b') :
    Bindings.Reflects ρ hidden b (r.bind maxNesting d (some d) none b)
      (r'.bind maxNesting d (some d) none b') := by
  refine bind_reflects halike hrec hd (some d) ?_ rfl h
  rintro _ ⟨rfl⟩
  exact hd

theorem exportDefault_stays {d : NodeId} (hd : S d) (h : b.Mirrors ρ hidden b') :
    Bindings.Stays ρ hidden b (r.exportDefault d b) (r'.exportDefault d b') := by
  obtain ⟨ρ₁, s, c, c', hout, hout', hlong, hs, hc⟩ := (bind_self_reflects halike hrec hd h).ends
  rw [exportDefault, exportDefault, hout, hout']
  cases s with
  | some s => exact ⟨ρ₁, hlong.markExported s, hc.markExported (hs s rfl)⟩
  | none =>
      obtain ⟨ρ₂, t, e, e', hout₂, hout₂', hlong₂, ht, he⟩ :=
        (hrec d hd none rfl ρ₁ c c' hc).ends
      dsimp only [Option.map_none]
      rw [hout₂, hout₂']
      cases t with
      | none => exact ⟨ρ₂, hlong.trans hlong₂, he⟩
      | some t =>
          exact ⟨ρ₂, ((hlong.trans hlong₂).setProp ..).markExported t,
            (he.setGlobal halike.default_visible (ht t rfl)).markExported
              ((ht t rfl).mono (by simp))⟩

theorem exportDeclaration_stays {d : NodeId} (hd : S d) (h : b.Mirrors ρ hidden b') :
    Bindings.Stays ρ hidden b (r.exportDeclaration d b) (r'.exportDeclaration d b') := by
  obtain ⟨ρ₁, s, c, c', hout, hout', hlong, hs, hc⟩ := (bind_self_reflects halike hrec hd h).ends
  rw [exportDeclaration, exportDeclaration, halike.node_eq d hd]
  cases hnode : r.ast.node d with
  | variableDeclaration kind declarators =>
      have hpart := halike.closed d hd
      rw [hnode] at hpart
      obtain ⟨ρ₂, stored, e, e', hrest, hrest', hstored, hlong₂, he⟩ :=
        bindDeclarators_ends_mirrored halike hrec hpart h
      dsimp only
      rw [hrest, hrest']
      exact he.markAll hlong₂ hstored
  | _ =>
      dsimp only
      rw [hout, hout']
      cases s with
      | none => exact ⟨ρ₁, hlong, hc⟩
      | some s => exact ⟨ρ₁, hlong.markExported s, hc.markExported (hs s rfl)⟩

theorem exportSpecifier_stays {source : NodeId} (hsource : S source) (h : b.Mirrors ρ hidden b') :
    Bindings.Stays ρ hidden b (r.exportSpecifier source b) (r'.exportSpecifier source b') := by
  obtain ⟨ρ₁, s, c, c', hout, hout', hlong, hs, hc⟩ :=
    (hrec source hsource (some root) rfl ρ b b' h).ends
  rw [exportSpecifier, exportSpecifier, hout, hout', halike.identifierName?_eq hsource]
  cases s with
  | none => exact ⟨ρ₁, hlong.report _, hc.report _⟩
  | some s => exact ⟨ρ₁, hlong.markExported s, hc.markExported (hs s rfl)⟩

/-- The assignment pass, likewise.  A function that is declared is resolved itself. -/
theorem assignThrough_stays (fuel : Nat) {id : NodeId} (hid : r'.ast.node id = r.ast.node id)
    (hpart : ∀ p ∈ (r.ast.node id).references, S p)
    (hself : ∀ name, r.ast.node id = .functionDeclaration name → S id)
    (h : b.Mirrors ρ hidden b') :
    Bindings.Stays ρ hidden b (r.assignThrough fuel id b) (r'.assignThrough fuel id b') := by
  induction fuel generalizing id ρ b b' with
  | zero => exact h.stays
  | succ fuel ih =>
      have hnext : ∀ p ∈ (r.ast.node id).references, ∀ ρ (e e' : Bindings),
          e.Mirrors ρ hidden e' →
          Bindings.Stays ρ hidden e (r.assignThrough fuel p e) (r'.assignThrough fuel p e') := by
        intro p hp ρ e e' he
        exact ih (halike.node_eq p (hpart p hp)) (halike.closed p (hpart p hp))
          (fun _ _ => hpart p hp) he
      have hbind : ∀ {target value : NodeId}, S target → S value → ∀ {scope : Option SymbolId},
          scope.getD root = root →
          Bindings.Stays ρ hidden b (r.bind maxNesting target (some value) scope b).2
            (r'.bind maxNesting target (some value) scope b').2 := by
        intro target value htarget hvalue scope hscope
        refine (bind_reflects halike hrec htarget (some value) ?_ hscope h).stays
        rintro _ ⟨rfl⟩
        exact hvalue
      rw [assignThrough, assignThrough, hid]
      cases hnode : r.ast.node id with
      | program body =>
          refine Bindings.Stays.foldl ?_ h.stays
          intro p hp ρ e e' _ he
          exact hnext p (hnode ▸ hp) ρ e e' he
      | expressionStatement expression =>
          exact hnext expression (by simp [hnode, Node.references]) ρ b b' h
      | assignment target value =>
          exact hbind (hpart target (by simp [hnode, Node.references]))
            (hpart value (by simp [hnode, Node.references])) rfl
      | variableDeclaration kind declarators =>
          rw [hnode] at hpart
          obtain ⟨ρ₁, stored, c, c', hout, hout', -, hlong, hc⟩ :=
            bindDeclarators_ends_mirrored halike hrec hpart h
          dsimp only
          rw [hout, hout']
          exact ⟨ρ₁, hlong, hc⟩
      | functionDeclaration name =>
          cases name with
          | none => exact h.stays
          | some name =>
              have hname : S name := hpart name (by simp [hnode, Node.references])
              dsimp only
              rw [halike.identifierName?_eq hname]
              split
              · exact hbind hname (hself _ hnode) rfl
              · exact h.stays
      | classDeclaration name body =>
          cases name with
          | none => exact h.stays
          | some name =>
              exact hbind (hpart name (by simp [hnode, Node.references]))
                (hpart body (by simp [hnode, Node.references])) rfl
      | exportDefault d =>
          exact exportDefault_stays halike hrec (hpart d (by simp [hnode, Node.references])) h
      | exportNamed declaration specifiers =>
          have hspecifiers : ∀ {ρ e e'}, Bindings.Mirrors ρ hidden e e' → Bindings.Stays ρ hidden e
              (specifiers.foldl (fun b n => r.assignThrough fuel n b) e)
              (specifiers.foldl (fun b n => r'.assignThrough fuel n b) e') := by
            intro ρ e e' he
            refine Bindings.Stays.foldl ?_ he.stays
            intro p hp ρ₁ e e' _ he
            exact hnext p (by simp [hnode, Node.references, hp]) ρ₁ e e' he
          cases declaration with
          | none => exact hspecifiers h
          | some d =>
              exact (exportDeclaration_stays halike hrec
                (hpart d (by simp [hnode, Node.references])) h).trans fun _ he => hspecifiers he
      | exportSpecifier source =>
          exact exportSpecifier_stays halike hrec
            (hpart source (by simp [hnode, Node.references])) h
      | _ => exact h.stays

section statements

variable {statements : List NodeId} (hid : ∀ x ∈ statements, r'.ast.node x = r.ast.node x)
  (hpart : ∀ x ∈ statements, ∀ p ∈ (r.ast.node x).references, S p)
include hid hpart

theorem declareStatements_stays (fuel : Nat) (h : b.Mirrors ρ hidden b') :
    Bindings.Stays ρ hidden b (statements.foldl (fun b x => r.declareThrough fuel x b) b)
      (statements.foldl (fun b x => r'.declareThrough fuel x b) b') := by
  refine Bindings.Stays.foldl ?_ h.stays
  intro x hx ρ e e' _ he
  exact declareThrough_stays halike hrec fuel (hid x hx) (hpart x hx) he

variable (hself : ∀ x ∈ statements, ∀ name, r.ast.node x = .functionDeclaration name → S x)
include hself

theorem assignStatements_stays (fuel : Nat) (h : b.Mirrors ρ hidden b') :
    Bindings.Stays ρ hidden b (statements.foldl (fun b x => r.assignThrough fuel x b) b)
      (statements.foldl (fun b x => r'.assignThrough fuel x b) b') := by
  refine Bindings.Stays.foldl ?_ h.stays
  intro x hx ρ e e' _ he
  exact assignThrough_stays halike hrec fuel (hid x hx) (hpart x hx) (hself x hx) he

/-- **Both passes over some statements.** -/
theorem bindStatements_stays (fuel : Nat) (h : b.Mirrors ρ hidden b') :
    Bindings.Stays ρ hidden b (r.bindStatements fuel statements b)
      (r'.bindStatements fuel statements b') := by
  refine (declareStatements_stays halike hrec hid hpart fuel h).trans ?_
  intro ρ' he
  exact assignStatements_stays halike hrec hid hpart hself fuel he

end statements

end passes

end Resolver

end ExportSurface

/-
Tasks make no other requests.

Every program of the binder is followed request by request, to see that it reads what occurs in its
node and the symbols that it knows, that it asks for the tasks listed in `Asks`, and that it makes
the changes listed in `Change`.

What holds along a run is then a matter of single entries of the two lists.  An `Invariant` says
what holds of states, of the tasks that may be performed and of the symbols that are found, and that
no entry leads out of it; then it is kept by whatever may be performed.

Main definitions:

* `Licence` — a request that a task may make;
* `Knowledge` — which symbols are known;
* `Invariant` — what no task and no change leads out of.

Main results:

* `Task.safe` — **a task makes no requests but those it may make**;
* `Invariant.run` — **whatever may be performed keeps an invariant**.
-/

import ExportSurface.Proofs.Changes
import Mathlib.Logic.Relation

set_option autoImplicit false

namespace ExportSurface

open SymbolGraph (root)

/-! ### The requests that a task makes -/

/-- A task that was started in `b₀` may make a request in the state `b`: read what occurs in its
node, read a symbol that it can see, ask for a task, or make a change. -/
inductive Licence (r : Resolver) (knows : Bindings → SymbolId → Prop) (t : Task)
    (b₀ b : Bindings) : Program.Request → Prop where
  | node {n : NodeId} : r.ast.Occurs t.node n → Licence r knows t b₀ b (.node n)
  | symbol {id : SymbolId} : t.Sees knows b id → Licence r knows t b₀ b (.symbol id)
  | perform {t' : Task} : Asks r b₀ t t' b → Licence r knows t b₀ b (.perform t')
  | report {d : Diagnostic} : Change r knows b₀ b t (b.report d) →
      Licence r knows t b₀ b (.report d)
  | alloc {s : Symbol} : Change r knows b₀ b t (b.alloc s).2 → Licence r knows t b₀ b (.alloc s)
  | setProp {id s : SymbolId} {key : String} : t.Sees knows b id →
      Change r knows b₀ b t (b.setProp id key s) → Licence r knows t b₀ b (.setProp id key s)
  | markExported {id : SymbolId} : t.Sees knows b id →
      Change r knows b₀ b t (b.markExported id) → Licence r knows t b₀ b (.markExported id)

/-- What is known of symbols: those that are made and those that properties lead to are known, and
they stay so. -/
structure Knowledge (holds : Bindings → Prop) (knows : Bindings → SymbolId → Prop) : Prop where
  made : ∀ {b : Bindings} {s : Symbol}, holds b → knows (b.alloc s).2 b.graph.size
  found : ∀ {b : Bindings} {id s : SymbolId} {key : String}, holds b →
    b.graph.prop? id key = some s → knows b s
  kept : ∀ {b b' : Bindings} {s : SymbolId}, knows b s → b.Grows b' → holds b' → knows b' s

/-- Nothing needs to be known. -/
theorem Knowledge.any (holds : Bindings → Prop) : Knowledge holds fun _ _ => True :=
  ⟨fun _ => trivial, fun _ _ => trivial, fun _ _ _ => trivial⟩

theorem Knowledge.mono {holds holds' : Bindings → Prop} {knows : Bindings → SymbolId → Prop}
    (h : Knowledge holds knows) (hholds : ∀ b, holds' b → holds b) : Knowledge holds' knows where
  made := fun hb => h.made (hholds _ hb)
  found := fun hb => h.found (hholds _ hb)
  kept := fun hs hgrows hb => h.kept hs hgrows (hholds _ hb)

/-! ### Following a program -/

/-- A task that was started in some state, with an invariant and what is known of symbols. -/
structure Setting where
  r : Resolver
  holds : Bindings → Prop
  knows : Bindings → SymbolId → Prop
  known : Knowledge holds knows
  task : Task
  start : Bindings

namespace Setting

variable {σ : Setting} {α β : Type} {S : β → Bindings → Prop} {b : Bindings}

/-- From a state on, a program makes only requests that the task may make. -/
abbrev Safe (σ : Setting) (p : Program α) (Q : α → Bindings → Prop) (b : Bindings) : Prop :=
  p.Safe σ.r σ.holds σ.knows (Licence σ.r σ.knows σ.task σ.start) Q b

/-- What was found is known. -/
def Found (σ : Setting) (s : Option SymbolId) (b : Bindings) : Prop :=
  ∀ x, s = some x → σ.knows b x

theorem found_none : σ.Found none b := fun x h => absurd h.symm (Option.some_ne_none x)

theorem found_some {s : SymbolId} (h : σ.knows b s) : σ.Found (some s) b :=
  fun _ hs => Option.some.inj hs ▸ h

/-! ### Single requests -/

theorem safe_node {n : NodeId} {k : Node → Program β} (hn : σ.r.ast.Occurs σ.task.node n)
    (hk : σ.Safe (k (σ.r.ast.node n)) S b) : σ.Safe (Program.node n >>= k) S b :=
  ⟨.node hn, fun _ => hk⟩

theorem safe_symbol {id : SymbolId} {k : Symbol → Program β} (hid : σ.task.Sees σ.knows b id)
    (hk : σ.Safe (k (b.graph.get id)) S b) : σ.Safe (Program.symbol id >>= k) S b :=
  ⟨.symbol hid, fun _ => hk⟩

theorem safe_perform {t : Task} {k : Option SymbolId → Program β}
    (ht : Asks σ.r σ.start σ.task t b)
    (hk : ∀ s c, t.run σ.r b = (s, c) → σ.holds c → b.Grows c → σ.Found s c →
      σ.Safe (k s) S c) : σ.Safe (Program.perform t >>= k) S b :=
  ⟨.perform ht, fun h => hk _ _ rfl h.holds h.grows (h.found t rfl)⟩

theorem safe_report {d : Diagnostic} {k : Unit → Program β} (hd : ∀ id, d ≠ .nestingLimit id)
    (hnode : σ.r.ast.Occurs σ.task.node d.node) (hk : σ.Safe (k ()) S (b.report d)) :
    σ.Safe (Program.report d >>= k) S b :=
  ⟨.report (.report hd hnode), fun _ => hk⟩

theorem safe_alloc {s : Symbol} {k : SymbolId → Program β} (hs : σ.task.Makes σ.r.ast s)
    (hb : σ.holds b)
    (hk : σ.holds (b.alloc s).2 → σ.knows (b.alloc s).2 b.graph.size →
      σ.Safe (k b.graph.size) S (b.alloc s).2) : σ.Safe (Program.alloc s >>= k) S b :=
  ⟨.alloc (.alloc hs), fun h => hk h.holds (σ.known.made hb)⟩

theorem safe_setProp {id s : SymbolId} {key : String} {k : Unit → Program β}
    (hid : σ.task.Sees σ.knows b id)
    (hchange : Change σ.r σ.knows σ.start b σ.task (b.setProp id key s))
    (hk : σ.holds (b.setProp id key s) → σ.Safe (k ()) S (b.setProp id key s)) :
    σ.Safe (Program.setProp id key s >>= k) S b :=
  ⟨.setProp hid hchange, fun h => hk h.holds⟩

/-! ### Look-ups -/

theorem safe_prop? {id : SymbolId} (hid : σ.task.Sees σ.knows b id) (key : String) :
    σ.Safe (Program.prop? id key) (fun _ _ => True) b :=
  safe_symbol hid trivial

theorem safe_member? {id : SymbolId} (hid : σ.task.Sees σ.knows b id) (key : String) :
    σ.Safe (Program.member? id key) (fun _ _ => True) b :=
  safe_symbol hid trivial

theorem safe_lookup {scope : Option SymbolId} (hscope : scope.getD root = σ.task.home)
    (name : String) (hb : σ.holds b) : σ.Safe (Program.lookup scope name) σ.Found b := by
  have hfound : ∀ id, σ.Found (b.graph.prop? id name) b := fun id _ => σ.known.found hb
  refine .read (Program.run_prop? ..) (safe_prop? (.inr (.inl hscope)) name) ?_
  cases hlookup : b.graph.prop? (scope.getD root) name with
  | some s => exact found_some (hfound _ s hlookup)
  | none => exact .ends (safe_prop? (.inl rfl) name) (hfound root)

theorem safe_identifierName? {id : NodeId} (hid : σ.r.ast.Occurs σ.task.node id) :
    σ.Safe (Program.identifierName? id) (fun _ _ => True) b := by
  refine safe_node hid ?_
  cases σ.r.ast.node id <;> trivial

theorem safe_staticKey? {id : NodeId} (hid : σ.r.ast.Occurs σ.task.node id) :
    σ.Safe (Program.staticKey? id) (fun _ _ => True) b := by
  refine safe_node hid ?_
  cases σ.r.ast.node id <;> trivial

theorem safe_entryKey? {entry : Entry} (hentry : σ.r.ast.Occurs σ.task.node entry.key) :
    σ.Safe (Program.entryKey? entry) (fun _ _ => True) b := by
  rw [Program.entryKey?]
  cases entry.computed with
  | true => trivial
  | false => exact safe_staticKey? hentry

theorem safe_pathSegment? {property : NodeId} (hproperty : σ.r.ast.Occurs σ.task.node property)
    (computed : Bool) : σ.Safe (Program.pathSegment? property computed) (fun _ _ => True) b := by
  rw [Program.pathSegment?]
  cases computed with
  | true => exact .read (Program.run_staticKey? ..) (safe_staticKey? hproperty) trivial
  | false => exact .read (Program.run_identifierName? ..) (safe_identifierName? hproperty) trivial

theorem safe_pathThrough? (fuel : Nat) {id : NodeId} (hid : σ.r.ast.Occurs σ.task.node id)
    (segments : List String) :
    σ.Safe (Program.pathThrough? fuel id segments) (fun _ _ => True) b := by
  induction fuel generalizing id segments with
  | zero => trivial
  | succ fuel ih =>
      refine safe_node hid ?_
      cases hnode : σ.r.ast.node id with
      | member base property computed =>
          have hbase := hid.part (p := base) (by simp [hnode, Node.references])
          have hproperty := hid.part (p := property) (by simp [hnode, Node.references])
          refine .read (Program.run_pathSegment? ..) (safe_pathSegment? hproperty computed) ?_
          cases σ.r.ast.pathSegment? property computed with
          | none => trivial
          | some segment => exact ih hbase (segment :: segments)
      | _ => trivial

theorem safe_describeKey {property : NodeId} (hproperty : σ.r.ast.Occurs σ.task.node property)
    (key : Option String) : σ.Safe (Program.describeKey property key) (fun _ _ => True) b := by
  cases key with
  | some key => trivial
  | none =>
      refine .read (Program.run_identifierName? ..) (safe_identifierName? hproperty) ?_
      exact safe_node hproperty trivial

theorem safe_withMembers {s : Option SymbolId} (hs : σ.Found s b) :
    σ.Safe (Program.withMembers s) (fun _ _ => True) b := by
  cases s with
  | none => trivial
  | some s => exact safe_symbol (.inr (.inr (hs s rfl))) trivial

/-! ### Resolving -/

section resolve

variable {levels : Nat} {id : NodeId} {scope : Option SymbolId} {options : ResolveOptions}
  (ht : σ.task = .resolve (levels + 1) id scope options)

theorem safe_resolvedKey? {property : NodeId} {scope : Option SymbolId} {options : ResolveOptions}
    (hask : Asks σ.r σ.start σ.task (.resolve levels property scope options) b) :
    σ.Safe (Program.resolvedKey? levels property scope options)
      (fun _ c => σ.holds c ∧ b.Grows c) b := by
  refine safe_perform hask fun s c _ hc hgrows hs => ?_
  cases s with
  | none => exact ⟨hc, hgrows⟩
  | some s => exact safe_symbol (.inr (.inr (hs s rfl))) ⟨hc, hgrows⟩

theorem safe_memberKey? {property : NodeId} {computed : Bool} {scope : Option SymbolId}
    (hproperty : σ.r.ast.Occurs σ.task.node property)
    (hask : ∀ options, σ.r.keyOptions? property computed = some options →
      Asks σ.r σ.start σ.task (.resolve levels property scope options) b) (hb : σ.holds b) :
    σ.Safe (Program.memberKey? σ.r.keys levels property computed scope)
      (fun _ c => σ.holds c ∧ b.Grows c) b := by
  unfold Resolver.keyOptions? at hask
  unfold Program.memberKey?
  cases hkeys : σ.r.keys with
  | resolved =>
      rw [hkeys] at hask
      exact safe_resolvedKey? (hask _ rfl)
  | direct =>
      rw [hkeys] at hask
      dsimp only at hask ⊢
      refine safe_node hproperty ?_
      rw [Ast.isDynamicKey] at hask
      cases hnode : σ.r.ast.node property with
      | identifier name =>
          rw [hnode] at hask
          cases computed with
          | true => exact safe_resolvedKey? (hask _ rfl)
          | false => exact ⟨hb, .refl b⟩
      | literal value => exact ⟨hb, .refl b⟩
      | _ =>
          rw [hnode] at hask
          exact safe_resolvedKey? (hask _ rfl)

theorem safe_reportMissing {id property : NodeId} (hid : σ.r.ast.Occurs σ.task.node id)
    (hproperty : σ.r.ast.Occurs σ.task.node property) (key : Option String) :
    σ.Safe (Program.reportMissing id property key) σ.Found b := by
  refine .read (Program.run_describeKey ..) (safe_describeKey hproperty key) ?_
  exact safe_report (by simp) hid found_none

/-- The task has made an object for a node, and the object can be filled. -/
structure Filling (σ : Setting) (id : NodeId) (b : Bindings) : Prop where
  holds : σ.holds b
  grows : (σ.start.alloc (.object (some id))).2.Grows b
  owner : σ.knows b σ.start.graph.size

namespace Filling

theorem grow {c : Bindings} (h : σ.Filling id b) (hgrows : b.Grows c) (hc : σ.holds c) :
    σ.Filling id c :=
  ⟨hc, h.grows.trans hgrows, σ.known.kept h.owner hgrows hc⟩

theorem lt_size (h : σ.Filling id b) : σ.start.graph.size < b.graph.size := by
  refine Nat.lt_of_lt_of_le ?_ h.grows.size_le
  simp

theorem hasMembers (h : σ.Filling id b) :
    (b.graph.get σ.start.graph.size).hasMembers = true := by
  rw [h.grows.hasMembers_eq (by simp), Bindings.alloc_graph, SymbolGraph.get_alloc, if_pos rfl]
  rfl

end Filling

include ht

theorem safe_object {k : SymbolId → Program β}
    (hnode : (σ.r.ast.node id).denotesObject = true) (hb : σ.holds σ.start)
    (hk : σ.Filling id (σ.start.alloc (.object (some id))).2 →
      σ.Safe (k σ.start.graph.size) S (σ.start.alloc (.object (some id))).2) :
    σ.Safe (Program.alloc (.object (some id)) >>= k) S σ.start :=
  safe_alloc (ht ▸ .object hnode) hb fun hc howner => hk ⟨hc, .refl _, howner⟩

theorem safe_fill {key : String} {s : SymbolId} {k : Unit → Program β} (hb : σ.Filling id b)
    (hs : σ.knows b s)
    (hk : σ.Filling id (b.setProp σ.start.graph.size key s) →
      σ.Safe (k ()) S (b.setProp σ.start.graph.size key s)) :
    σ.Safe (Program.setProp σ.start.graph.size key s >>= k) S b := by
  refine safe_setProp (.inr (.inr hb.owner)) ?_ fun hc => hk (hb.grow (.setProp ..) hc)
  rw [ht]
  exact .fill hb.lt_size hb.hasMembers hs

theorem safe_functionSymbol (hnode : (σ.r.ast.node id).denotesObject = true)
    (hb : σ.holds σ.start) :
    σ.Safe (Program.functionSymbol id) (fun s c => σ.knows c s) σ.start := by
  refine safe_object ht hnode hb fun hfunction => ?_
  refine safe_alloc (ht ▸ .unnamed) hfunction.holds fun hc hprototype => ?_
  exact safe_fill ht (hfunction.grow (.alloc ..) hc) hprototype fun hend => hend.owner

theorem occurs_entry_key {entries : List Entry}
    (hnode : (σ.r.ast.node id).references = entries.flatMap fun e => [e.key, e.value]) {e : Entry}
    (he : e ∈ entries) : σ.r.ast.Occurs σ.task.node e.key := by
  rw [ht]
  refine .of_part ?_
  rw [Task.node, hnode]
  exact List.mem_flatMap.2 ⟨e, he, by simp⟩

theorem safe_addMethod {methods : List Entry} (hnode : σ.r.ast.node id = .classBody methods)
    {m : Entry} (hm : m ∈ methods) (hb : σ.Filling id b) :
    σ.Safe (Program.addMethod σ.start.graph.size m) (fun _ c => σ.Filling id c) b := by
  have hkey := occurs_entry_key ht (by rw [hnode]; rfl) hm
  refine .read (Program.run_entryKey? ..) (safe_entryKey? hkey) ?_
  cases hentry : σ.r.ast.entryKey? m with
  | none => exact hb
  | some key =>
      refine safe_alloc (ht ▸ .method hnode hm hentry) hb.holds fun hc hmethod => ?_
      exact safe_fill (k := pure) ht (hb.grow (.alloc ..) hc) hmethod fun hend => hend

theorem safe_addProperty {before after : List Entry} {p : Entry}
    (hnode : σ.r.ast.node id = .object (before ++ p :: after))
    (hb : σ.Filling id (σ.r.addProperties (σ.r.resolve levels) scope options σ.start.graph.size
      before (σ.start.alloc (.object (some id))).2)) :
    σ.Safe (Program.addProperty levels scope options σ.start.graph.size p)
      (fun _ c => σ.Filling id c) (σ.r.addProperties (σ.r.resolve levels) scope options
        σ.start.graph.size before (σ.start.alloc (.object (some id))).2) := by
  have hkey := occurs_entry_key ht (by rw [hnode]; rfl) (List.mem_append_right _ (.head _))
  refine .read (Program.run_entryKey? ..) (safe_entryKey? hkey) ?_
  cases hentry : σ.r.ast.entryKey? p with
  | none => exact hb
  | some key =>
      refine safe_perform (ht ▸ .entry hnode hentry) fun s c _ hc hgrows hs => ?_
      have hfilling := hb.grow hgrows hc
      cases s with
      | none => exact hfilling
      | some s => exact safe_fill (k := pure) ht hfilling (hs s rfl) fun hend => hend

/-- Making a member that is missing. -/
theorem safe_createMember {owner : SymbolId} {name : String}
    (hcreate : options.createMissing = true)
    (hgrows : σ.start.Grows b) (howner : σ.knows b owner)
    (hmembers : (b.graph.get owner).hasMembers = true) (hnone : b.graph.prop? owner name = none)
    (hb : σ.holds b) : σ.Safe (Program.createMember owner name) σ.Found b := by
  refine safe_alloc (ht ▸ .unnamed) hb fun hc hcreated => ?_
  have howner' := σ.known.kept howner (.alloc b _) hc
  refine safe_setProp (.inr (.inr howner')) ?_ fun hd => ?_
  · rw [ht]
    exact .create hcreate hgrows howner hmembers hnone rfl hcreated
  · exact found_some (σ.known.kept hcreated (.setProp ..) hd)

theorem safe_resolveMember {base property : NodeId} {computed : Bool}
    (hnode : σ.r.ast.node id = .member base property computed) (hb : σ.holds σ.start) :
    σ.Safe (Program.resolveMember σ.r.keys levels id base property computed scope options)
      σ.Found σ.start := by
  have hid : σ.r.ast.Occurs σ.task.node id := by
    rw [ht]
    exact .here
  have hproperty := hid.part (p := property) (by simp [hnode, Node.references])
  refine safe_perform (ht ▸ .base hnode) fun owner c hout hc hgrows howner => ?_
  have hask : ∀ keyOptions, σ.r.keyOptions? property computed = some keyOptions →
      Asks σ.r σ.start σ.task (.resolve levels property scope keyOptions) c := by
    intro keyOptions hkey
    have hstate : (σ.r.resolve levels base scope options σ.start).2 = c := congrArg Prod.snd hout
    rw [ht, ← hstate]
    exact .key hnode hkey
  refine .bind (safe_memberKey? hproperty hask hc) ?_
  rintro ⟨hd, hgrows'⟩
  rw [Program.run_memberKey?] at hd hgrows' ⊢
  generalize σ.r.memberKey? (σ.r.resolve levels) property computed scope c = keyed at hd hgrows' ⊢
  obtain ⟨key, d⟩ := keyed
  cases owner with
  | none => exact safe_reportMissing hid hproperty key
  | some owner =>
      cases key with
      | none => exact safe_reportMissing hid hproperty none
      | some name =>
          have hknows : σ.knows d owner := σ.known.kept (howner owner rfl) hgrows' hd
          refine .read (Program.run_member? ..) (safe_member? (.inr (.inr hknows)) name) ?_
          cases hmember : d.graph.member? owner name with
          | some existing =>
              rw [SymbolGraph.member?, Option.ite_none_right_eq_some] at hmember
              exact found_some (σ.known.found hd hmember.2)
          | none =>
              refine safe_symbol (.inr (.inr hknows)) ?_
              dsimp only
              split
              · next hcond =>
                  obtain ⟨hcreate, hmembers⟩ := Bool.and_eq_true_iff.1 hcond
                  rw [SymbolGraph.member?, if_pos hmembers] at hmember
                  exact safe_createMember ht hcreate (hgrows.trans hgrows') hknows hmembers hmember
                    hd
              · exact safe_reportMissing hid hproperty (some name)

theorem safe_resolveNode (hb : σ.holds σ.start) :
    σ.Safe (Program.resolveNode σ.r.keys levels id scope options) σ.Found σ.start := by
  have hid : σ.r.ast.Occurs σ.task.node id := by
    rw [ht]
    exact .here
  have hfunction : (σ.r.ast.node id).denotesObject = true →
      σ.Safe (do return some (← Program.functionSymbol id)) σ.Found σ.start :=
    fun hnode => .bind (safe_functionSymbol ht hnode hb) fun hs => found_some hs
  refine safe_node hid ?_
  cases hnode : σ.r.ast.node id with
  | identifier name =>
      dsimp only [Program.resolveIdentifier]
      split
      · next hsimple =>
          exact safe_alloc (ht ▸ .name hnode hsimple) hb fun _ hs => found_some hs
      · exact safe_lookup (by rw [ht]; rfl) name hb
  | member base property computed => exact safe_resolveMember ht hnode hb
  | classDeclaration _ _ => exact hfunction (by rw [hnode]; rfl)
  | functionDeclaration _ => exact hfunction (by rw [hnode]; rfl)
  | functionExpression _ => exact hfunction (by rw [hnode]; rfl)
  | arrowFunction => exact hfunction (by rw [hnode]; rfl)
  | assignment target value =>
      exact safe_perform (k := pure) (ht ▸ .assignment hnode) fun _ _ _ _ _ hs => hs
  | classBody methods =>
      refine safe_object ht (by rw [hnode]; rfl) hb fun hfilling => ?_
      refine .bind (.forM (fun c m => congrArg Prod.snd (Program.run_addMethod ..)) ?_ hfilling)
        fun hend => found_some hend.owner
      rintro before m after rfl hc
      exact safe_addMethod ht hnode (by simp) hc
  | object properties =>
      refine safe_object ht (by rw [hnode]; rfl) hb fun hfilling => ?_
      refine .bind (.forM (fun c p => congrArg Prod.snd (Program.run_addProperty ..)) ?_ hfilling)
        fun hend => found_some hend.owner
      rintro before p after rfl hc
      exact safe_addProperty ht hnode hc
  | literal value => exact safe_alloc (ht ▸ .literal hnode) hb fun _ hs => found_some hs
  | _ => exact safe_report (by simp) hid found_none

end resolve

/-! ### Binding -/

section bind

variable {levels : Nat} {target : NodeId} {value : Option NodeId} {scope : Option SymbolId}
  (ht : σ.task = .bind levels target value scope)

theorem safe_skip {d : Diagnostic} (hd : ∀ id, d ≠ .nestingLimit id)
    (hnode : σ.r.ast.Occurs σ.task.node d.node) :
    σ.Safe (do Program.report d; return none) σ.Found b :=
  safe_report hd hnode found_none

include ht

/-- A symbol is stored at the entry that the target addresses, and answered. -/
theorem safe_store {owner s : SymbolId} {key : String} {found : Bindings}
    (hentry : σ.r.Addresses levels target scope σ.start owner key found) (hgrows : found.Grows b)
    (howner : (σ.r.ast.node target).isMember = true → σ.knows found owner)
    (hstores : σ.r.keys = .direct → σ.r.ast.Stores b target key) (hs : σ.knows b s)
    (hbind : σ.r.bind levels target value scope σ.start = (some s, b.setProp owner key s))
    (hb : σ.holds b) : σ.Safe (do Program.setProp owner key s; return some s) σ.Found b := by
  refine safe_setProp ?_ ?_ fun hc => found_some (σ.known.kept hs (.setProp ..) hc)
  · rw [ht]
    exact hentry.owner_cases.imp_right (.imp_right fun h => σ.known.kept (howner h.1) hgrows hb)
  · rw [ht]
    exact .store hentry hgrows howner hstores hs hbind

/-- Binding a name in a scope, where the name is that of the target. -/
theorem safe_bindName {holder : NodeId} {name : String} {stored : Option NodeId} {owner : SymbolId}
    (hentry : σ.r.Addresses levels target scope σ.start owner name σ.start)
    (htarget : (σ.r.ast.node target).isMember = false)
    (hstores : ∀ c, σ.r.ast.Stores c target name) (hholder : σ.r.ast.Occurs σ.task.node holder)
    (hbind : σ.r.bind levels target value scope σ.start =
      Resolver.bindName (σ.r.resolve levels) holder name stored owner σ.start)
    (hask : ∀ v, stored = some v →
      Asks σ.r σ.start σ.task (.resolve levels v (some owner) {}) σ.start)
    (hmakes : stored = none → σ.task.Makes σ.r.ast .placeholder) (hb : σ.holds σ.start) :
    σ.Safe (Program.bindName levels holder name stored owner) σ.Found σ.start := by
  have howner : (σ.r.ast.node target).isMember = true → σ.knows σ.start owner := by simp [htarget]
  cases stored with
  | none =>
      refine safe_alloc (hmakes rfl) hb fun hc hs => ?_
      exact safe_store ht hentry (.alloc ..) howner (fun _ => hstores _) hs hbind hc
  | some v =>
      refine safe_perform (hask v rfl) fun s c hout hc hgrows hs => ?_
      have hvalue : σ.r.resolve levels v (some owner) {} σ.start = (s, c) := hout
      rw [Resolver.bindName, hvalue] at hbind
      cases s with
      | none => exact safe_skip (by simp) hholder
      | some s =>
          exact safe_store ht hentry hgrows howner (fun _ => hstores _) (hs s rfl) hbind hc

theorem safe_bindMember {base property : NodeId} {computed : Bool}
    (hnode : σ.r.ast.node target = .member base property computed) (hb : σ.holds σ.start) :
    σ.Safe (Program.bindMember σ.r levels target base property computed value (scope.getD root))
      σ.Found σ.start := by
  have hid : σ.r.ast.Occurs σ.task.node target := by
    rw [ht]
    exact .here
  have hproperty := hid.part (p := property) (by simp [hnode, Node.references])
  have hskip : ∀ {b : Bindings}, σ.Safe
      (do
        let path ← Program.pathThrough? (σ.r.ast.size + 1) target []
        Program.report (.unresolvedTarget target (path.getD "<member>"))
        return none) σ.Found b :=
    .read (Program.run_pathThrough? ..) (safe_pathThrough? _ hid []) (safe_skip (by simp) hid)
  refine safe_perform (ht ▸ .targetBase hnode) fun owner c hout hc hgrows howner => ?_
  have hbase : σ.r.resolve levels base (some (scope.getD root)) {} σ.start = (owner, c) := hout
  refine .read (Program.run_withMembers ..) (safe_withMembers howner) ?_
  have hask : ∀ options, σ.r.keyOptions? property computed = some options →
      Asks σ.r σ.start σ.task (.resolve levels property (some (scope.getD root)) options) c := by
    intro options hkey
    have hstate : (σ.r.resolve levels base (some (scope.getD root)) {} σ.start).2 = c :=
      congrArg Prod.snd hout
    rw [ht, ← hstate]
    exact .targetKey hnode hkey
  refine .bind (safe_memberKey? hproperty hask hc) ?_
  rintro ⟨hd, hgrows'⟩
  rw [Program.run_memberKey?] at hd hgrows' ⊢
  rcases hkeyed : σ.r.memberKey? (σ.r.resolve levels) property computed (some (scope.getD root)) c
    with ⟨key, d⟩
  rw [hkeyed] at hd hgrows'
  cases hfilter : owner.filter fun s => (c.graph.get s).hasMembers with
  | none => exact hskip
  | some o =>
      obtain ⟨rfl, hmembers⟩ := Option.filter_eq_some_iff.1 hfilter
      cases key with
      | none => exact hskip
      | some key =>
          dsimp only
          cases value with
          | none => exact safe_skip (by simp) hid
          | some v =>
              have hvalue : Asks σ.r σ.start σ.task
                  (.resolve levels v (some (scope.getD root)) {}) d := by
                rw [ht]
                exact .member hnode hbase hmembers hkeyed
              refine safe_perform hvalue fun s e hout' he hgrows'' hs => ?_
              have hstored : σ.r.resolve levels v (some (scope.getD root)) {} d = (s, e) := hout'
              cases s with
              | none => exact safe_skip (by simp) hid
              | some s =>
                  refine safe_store ht (.member hnode hbase hmembers hkeyed)
                    (hgrows'.trans hgrows'') (fun _ => howner o rfl) ?_ (hs s rfl) ?_ he
                  · intro hkeys
                    exact .member hnode ((Resolver.yields_of_memberKey? hkeys hkeyed).mono hgrows'')
                  · rw [Resolver.bind, Resolver.bindWith, hnode]
                    dsimp only
                    rw [Resolver.bindMember, hbase]
                    dsimp only
                    rw [hfilter, hkeyed]
                    dsimp only
                    rw [hstored]

/-- A named declaration is bound among the globals. -/
theorem safe_bindGlobal {id v : NodeId} (hid : σ.r.ast.Occurs σ.task.node id)
    (htarget : (σ.r.ast.node target).isMember = false)
    (hentry : ∀ name, σ.r.ast.node id = .identifier name →
      σ.r.Addresses levels target scope σ.start root name σ.start ∧
      (∀ c, σ.r.ast.Stores c target name) ∧
      σ.r.bind levels target value scope σ.start =
        Resolver.bindName (σ.r.resolve levels) id name (some v) root σ.start ∧
      Asks σ.r σ.start σ.task (.resolve levels v (some root) {}) σ.start)
    (hb : σ.holds σ.start) : σ.Safe (Program.bindGlobal levels id v) σ.Found σ.start := by
  refine safe_node hid ?_
  cases hname : σ.r.ast.node id with
  | identifier name =>
      obtain ⟨haddress, hstores, hbind, hask⟩ := hentry name hname
      exact safe_bindName ht haddress htarget hstores hid hbind
        (fun u hu => Option.some.inj hu ▸ hask) nofun hb
  | _ => exact found_none

theorem safe_bindWith (hb : σ.holds σ.start) :
    σ.Safe (Program.bindWith σ.r levels target value scope) σ.Found σ.start := by
  have hid : σ.r.ast.Occurs σ.task.node target := by
    rw [ht]
    exact .here
  refine safe_node hid ?_
  cases hnode : σ.r.ast.node target with
  | classDeclaration id body =>
      cases id with
      | none => exact found_none
      | some id =>
          refine safe_bindGlobal ht (hid.part (by simp [hnode, Node.references]))
            (by rw [hnode]; rfl) ?_ hb
          intro name hname
          refine ⟨.className hnode hname, fun _ => .className hnode hname, ?_,
            ht ▸ .classBody hnode hname⟩
          rw [Resolver.bind, Resolver.bindWith, hnode]
          dsimp only
          rw [hname]
  | functionDeclaration id =>
      cases id with
      | none => exact found_none
      | some id =>
          refine safe_bindGlobal ht (hid.part (by simp [hnode, Node.references]))
            (by rw [hnode]; rfl) ?_ hb
          intro name hname
          refine ⟨.functionName hnode hname, fun _ => .functionName hnode hname, ?_,
            ht ▸ .function hnode hname⟩
          rw [Resolver.bind, Resolver.bindWith, hnode]
          dsimp only
          rw [hname]
  | identifier name =>
      refine safe_bindName ht (.name hnode) (by rw [hnode]; rfl) (fun _ => .name hnode) hid ?_ ?_ ?_
        hb
      · rw [Resolver.bind, Resolver.bindWith, hnode]
      · rintro v rfl
        exact ht ▸ .named hnode
      · rintro rfl
        exact ht ▸ .placeholder hnode
  | member base property computed => exact safe_bindMember ht hnode hb
  | _ => exact found_none

end bind

/-! ### The passes -/

/-- What a pass leaves. -/
def Passed (σ : Setting) (b : Bindings) : Prop := σ.holds b ∧ σ.start.Grows b

theorem Passed.step {c : Bindings} (h : σ.Passed b) (hgrows : b.Grows c) (hc : σ.holds c) :
    σ.Passed c :=
  ⟨hc, h.2.trans hgrows⟩

theorem safe_visit {t : Task} (ht : Asks σ.r σ.start σ.task t b) (hb : σ.Passed b) :
    σ.Safe (Program.visit t) (fun _ c => σ.Passed c) b :=
  safe_perform ht fun _ _ _ hc hgrows _ => hb.step hgrows hc

/-- Passing over nodes one after the other. -/
theorem safe_visits {visit : NodeId → Task} {nodes : List NodeId} (hb : σ.Passed b)
    (hask : ∀ before x after, nodes = before ++ x :: after →
      Asks σ.r σ.start σ.task (visit x) (before.foldl (fun c y => ((visit y).run σ.r c).2) b)) :
    σ.Safe (nodes.forM fun x => Program.visit (visit x)) (fun _ c => σ.Passed c) b :=
  .forM (fun _ _ => rfl)
    (fun before x after hnodes hc => safe_visit (hask before x after hnodes) hc) hb

section declare

variable {fuel : Nat} {id : NodeId} (ht : σ.task = .declare (fuel + 1) id)
include ht

theorem safe_setOnWindow {kind : DeclarationKind} {declarators : List Declarator}
    (hnode : σ.r.ast.node id = .variableDeclaration kind declarators) {d : Declarator}
    (hd : d ∈ declarators) {s : Option SymbolId} (hs : σ.Found s b) (hb : σ.Passed b) :
    σ.Safe (Program.setOnWindow d.target s) (fun _ c => σ.Passed c) b := by
  have htarget : σ.r.ast.Occurs σ.task.node d.target := by
    rw [ht]
    refine .of_part ?_
    rw [Task.node, hnode]
    exact List.mem_flatMap.2 ⟨d, hd, by simp⟩
  refine .read (Program.run_prop? ..) (safe_prop? (.inl rfl) "window") ?_
  refine .read (Program.run_identifierName? ..) (safe_identifierName? htarget) ?_
  cases s with
  | none => exact hb
  | some s =>
      cases hwindow : b.graph.prop? root "window" with
      | none => exact hb
      | some window =>
          rw [Ast.identifierName?]
          cases hname : σ.r.ast.node d.target with
          | identifier name =>
              have hknows := σ.known.found hb.1 hwindow
              refine safe_setProp (k := pure) (.inr (.inr hknows)) ?_ fun hc =>
                hb.step (.setProp ..) hc
              rw [ht]
              exact .window hnode hd hname hwindow hknows (hs s rfl)
          | _ => exact hb

theorem safe_declareNode (hb : σ.holds σ.start) :
    σ.Safe (Program.declareNode fuel id) (fun _ c => σ.Passed c) σ.start := by
  have hid : σ.r.ast.Occurs σ.task.node id := by
    rw [ht]
    exact .here
  have hstart : σ.Passed σ.start := ⟨hb, .refl _⟩
  refine safe_node hid ?_
  cases hnode : σ.r.ast.node id with
  | program body =>
      refine safe_visits hstart ?_
      rintro before x after rfl
      exact ht ▸ .declareStatement hnode
  | expressionStatement expression => exact safe_visit (ht ▸ .declareExpression hnode) hstart
  | variableDeclaration kind declarators =>
      refine .forM (fun c d => congrArg Prod.snd (Program.run_declareVariable ..)) ?_ hstart
      rintro before d after rfl hc
      refine safe_perform (ht ▸ .hoisted hnode) fun s e _ he hgrows hs => ?_
      have hpassed := hc.step hgrows he
      split
      · exact safe_setOnWindow ht hnode (by simp) hs hpassed
      · exact hpassed
  | exportNamed declaration specifiers =>
      cases declaration with
      | none => exact hstart
      | some declaration => exact safe_visit (ht ▸ .declareExported hnode) hstart
  | _ => exact hstart

end declare

section assign

variable {fuel : Nat} {id : NodeId} (ht : σ.task = .assign (fuel + 1) id)

/-- Binding variables one after the other: what is stored is known in the end. -/
theorem safe_bindDeclarators {declarators : List Declarator} (hb : σ.holds b)
    (hask : ∀ before d after, declarators = before ++ d :: after →
      Asks σ.r σ.start σ.task (.bind maxNesting d.target d.init none)
        (σ.r.bindDeclarators before b).2) :
    σ.Safe (Program.bindDeclarators declarators)
      (fun stored c => σ.holds c ∧ b.Grows c ∧ ∀ s ∈ stored, σ.knows c s) b := by
  induction declarators generalizing b with
  | nil => exact ⟨hb, .refl b, fun s hs => absurd hs List.not_mem_nil⟩
  | cons d rest ih =>
      refine safe_perform (hask [] d rest rfl) fun s c hout hc hgrows hs => ?_
      have hbind : σ.r.bind maxNesting d.target d.init none b = (s, c) := hout
      have hask' : ∀ before e after, rest = before ++ e :: after →
          Asks σ.r σ.start σ.task (.bind maxNesting e.target e.init none)
            (σ.r.bindDeclarators before c).2 := by
        rintro before e after rfl
        have hlater := hask (d :: before) e after rfl
        rw [Resolver.bindDeclarators, hbind] at hlater
        exact hlater
      refine .bind (ih hc hask') ?_
      rintro ⟨hend, hgrows', hstored⟩
      refine ⟨hend, hgrows.trans hgrows', ?_⟩
      intro x hx
      rcases List.mem_append.1 hx with hx | hx
      · exact σ.known.kept (hs x (Option.mem_toList.1 hx)) hgrows' hend
      · exact hstored x hx

include ht

theorem safe_mark {s : SymbolId} (hs : σ.knows b s) (hb : σ.Passed b) :
    σ.Safe (Program.markExported s) (fun _ c => σ.Passed c) b :=
  ⟨.markExported (.inr (.inr hs)) (ht ▸ .mark hs), fun h => hb.step (.markExported ..) h.holds⟩

theorem safe_markFound {s : Option SymbolId} (hs : σ.Found s b) (hb : σ.Passed b) :
    σ.Safe (Program.markFound s) (fun _ c => σ.Passed c) b := by
  cases s with
  | none => exact hb
  | some s => exact safe_mark ht (hs s rfl) hb

theorem safe_exportDefault {x : NodeId} (hnode : σ.r.ast.node id = .exportDefault x)
    (hb : σ.holds σ.start) :
    σ.Safe (Program.exportDefault x) (fun _ c => σ.Passed c) σ.start := by
  refine safe_perform (ht ▸ .exportedDefault hnode) fun s c hout hc hgrows hs => ?_
  cases s with
  | some s => exact safe_mark ht (hs s rfl) ⟨hc, hgrows⟩
  | none =>
      refine safe_perform (ht ▸ .defaultValue hnode hout) fun s d _ hd hgrows' hs => ?_
      have hpassed : σ.Passed d := ⟨hd, hgrows.trans hgrows'⟩
      cases s with
      | none => exact hpassed
      | some s =>
          refine safe_setProp (.inl rfl) ?_ fun he => ?_
          · rw [ht]
            exact .storeDefault hnode (hs s rfl)
          · exact safe_mark ht (σ.known.kept (hs s rfl) (.setProp ..) he)
              (hpassed.step (.setProp ..) he)

theorem safe_exportDeclaration {x : NodeId} {specifiers : List NodeId}
    (hnode : σ.r.ast.node id = .exportNamed (some x) specifiers) (hb : σ.holds σ.start) :
    σ.Safe (Program.exportDeclaration x) (fun _ c => σ.Passed c) σ.start := by
  have hx : σ.r.ast.Occurs σ.task.node x := by
    rw [ht]
    refine .of_part ?_
    rw [Task.node, hnode]
    simp [Node.references]
  have hstored : (∀ kind declarators, σ.r.ast.node x ≠ .variableDeclaration kind declarators) →
      σ.Safe (do Program.markFound (← Program.perform (.bind maxNesting x (some x) none)))
        (fun _ c => σ.Passed c) σ.start := by
    intro hkind
    refine safe_perform (ht ▸ .exported hnode hkind) fun s c _ hc hgrows hs => ?_
    exact safe_markFound ht hs ⟨hc, hgrows⟩
  refine safe_node hx ?_
  cases hdeclaration : σ.r.ast.node x with
  | variableDeclaration kind declarators =>
      refine .bind (safe_bindDeclarators hb ?_) ?_
      · rintro before d after rfl
        exact ht ▸ .exportedDeclarator hnode hdeclaration
      rintro ⟨hc, hgrows, hknows⟩
      generalize (Program.bindDeclarators declarators).run σ.r σ.start = out at hc hgrows hknows ⊢
      -- the symbols stay known while they are flagged one after the other
      refine .mono (fun _ _ h => h.1) (.forM (P := fun c => σ.Passed c ∧ ∀ s ∈ out.1, σ.knows c s)
        (fun _ _ => rfl) ?_ ⟨⟨hc, hgrows⟩, hknows⟩)
      intro before s after hout hall
      have hs : s ∈ out.1 := by
        rw [hout]
        simp
      refine ⟨.markExported (.inr (.inr (hall.2 s hs))) (ht ▸ .mark (hall.2 s hs)), fun h => ?_⟩
      exact ⟨hall.1.step (.markExported ..) h.holds,
        fun s hs => σ.known.kept (hall.2 s hs) (.markExported ..) h.holds⟩
  | _ => exact hstored (by simp [hdeclaration])

theorem safe_exportSpecifier {source : NodeId} (hnode : σ.r.ast.node id = .exportSpecifier source) :
    σ.Safe (Program.exportSpecifier source) (fun _ c => σ.Passed c) σ.start := by
  have hsource : σ.r.ast.Occurs σ.task.node source := by
    rw [ht]
    refine .of_part ?_
    rw [Task.node, hnode]
    simp [Node.references]
  refine safe_perform (ht ▸ .source hnode) fun s c _ hc hgrows hs => ?_
  cases s with
  | some s => exact safe_mark ht (hs s rfl) ⟨hc, hgrows⟩
  | none =>
      refine .read (Program.run_identifierName? ..) (safe_identifierName? hsource) ?_
      exact ⟨.report (.report (by simp) hsource), fun h => ⟨h.holds, hgrows.trans h.grows⟩⟩

theorem safe_assignNode (hb : σ.holds σ.start) :
    σ.Safe (Program.assignNode fuel id) (fun _ c => σ.Passed c) σ.start := by
  have hid : σ.r.ast.Occurs σ.task.node id := by
    rw [ht]
    exact .here
  have hstart : σ.Passed σ.start := ⟨hb, .refl _⟩
  refine safe_node hid ?_
  cases hnode : σ.r.ast.node id with
  | program body =>
      refine safe_visits hstart ?_
      rintro before x after rfl
      exact ht ▸ .statement hnode
  | expressionStatement expression => exact safe_visit (ht ▸ .expression hnode) hstart
  | assignment target value => exact safe_visit (ht ▸ .stored hnode) hstart
  | variableDeclaration kind declarators =>
      refine .bind (safe_bindDeclarators hb ?_) fun h => ⟨h.1, h.2.1⟩
      rintro before d after rfl
      exact ht ▸ .declarator hnode
  | functionDeclaration name =>
      cases name with
      | none => exact hstart
      | some name =>
          have hname := hid.part (p := name) (by simp [hnode, Node.references])
          refine .read (Program.run_identifierName? ..) (safe_identifierName? hname) ?_
          split
          · next hsome => exact safe_visit (ht ▸ .functionDeclaration hnode hsome) hstart
          · exact hstart
  | classDeclaration name body =>
      cases name with
      | none => exact hstart
      | some name => exact safe_visit (ht ▸ .classDeclaration hnode) hstart
  | exportDefault x => exact safe_exportDefault ht hnode hb
  | exportNamed declaration specifiers =>
      have hinline : σ.Safe (Program.exportInline declaration) (fun _ c => σ.Passed c) σ.start := by
        cases declaration with
        | none => exact hstart
        | some x => exact safe_exportDeclaration ht hnode hb
      have hrun : ((Program.exportInline declaration).run σ.r σ.start).2 =
          declaration.elim σ.start fun d => σ.r.exportDeclaration d σ.start := by
        cases declaration with
        | none => rfl
        | some x => exact congrArg Prod.snd (Program.run_exportDeclaration ..)
      refine .bind hinline fun hpassed => safe_visits hpassed ?_
      rintro before x after rfl
      rw [hrun, ht]
      exact .specifier hnode
  | exportSpecifier source => exact safe_exportSpecifier ht hnode
  | _ => exact hstart

end assign

end Setting

/-! ### All tasks -/

namespace Task

variable {r : Resolver} {t t' : Task} {b₀ b : Bindings}

/-- **A task makes no requests but those it may make**, and what it finds is known. -/
theorem safe {holds : Bindings → Prop} {knows : Bindings → SymbolId → Prop}
    (hknown : Knowledge holds knows) (t : Task) (hb : holds b) :
    (t.program r).Safe r holds knows (Licence r knows t b)
      (fun s c => ∀ x, s = some x → knows c x) b := by
  -- what a pass answers is nothing
  have hpass : ∀ {σ : Setting} {p : Program Unit} {b : Bindings},
      σ.Safe p (fun _ c => σ.Passed c) b → σ.Safe (do p; return none) σ.Found b :=
    fun h => .bind h fun _ => Setting.found_none
  let σ : Setting := ⟨r, holds, knows, hknown, t, b⟩
  change σ.Safe (t.program r) σ.Found b
  cases t with
  | resolve levels id scope options =>
      cases levels with
      | zero => exact ⟨.report .limit, fun _ => Setting.found_none⟩
      | succ levels => exact Setting.safe_resolveNode (σ := σ) rfl hb
  | bind levels target value scope => exact Setting.safe_bindWith (σ := σ) rfl hb
  | declare fuel id =>
      cases fuel with
      | zero => exact Setting.found_none
      | succ fuel => exact hpass (Setting.safe_declareNode (σ := σ) rfl hb)
  | assign fuel id =>
      cases fuel with
      | zero => exact Setting.found_none
      | succ fuel => exact hpass (Setting.safe_assignNode (σ := σ) rfl hb)

/-- How far tasks that ask for each other can go. -/
def rank : Task → Nat
  | resolve levels _ _ _ => 2 * levels
  | bind levels _ _ _ => 2 * levels + 1
  | declare fuel _ | assign fuel _ => 2 * maxNesting + 2 + fuel

end Task

theorem Asks.rank_lt {r : Resolver} {t t' : Task} {b₀ b : Bindings} (h : Asks r b₀ t t' b) :
    t'.rank < t.rank := by
  cases h <;> simp only [Task.rank] <;> omega

/-- A task that was allowed to start in `b₀` has come to `b`. -/
structure Underway (allows : Task → Bindings → Prop) (holds : Bindings → Prop) (t : Task)
    (b₀ b : Bindings) : Prop where
  allowed : allows t b₀
  started : holds b₀
  holds : holds b
  grows : b₀.Grows b

/-- What holds of the states, of the tasks that may be started in a state, and of the symbols that
are found; and neither a task that is asked for nor a change leads out of it. -/
structure Invariant (r : Resolver) where
  allows : Task → Bindings → Prop
  holds : Bindings → Prop
  knows : Bindings → SymbolId → Prop
  known : Knowledge holds knows
  asked : ∀ {t t' : Task} {b₀ b : Bindings}, Underway allows holds t b₀ b → Asks r b₀ t t' b →
    allows t' b
  changed : ∀ {t : Task} {b₀ b b' : Bindings}, Underway allows holds t b₀ b →
    Change r knows b₀ b t b' → holds b'

namespace Invariant

variable {r : Resolver} (inv : Invariant r) {t : Task} {b b₀ : Bindings}

/-- What holds of the states that a task comes to. -/
abbrev Since (b₀ b : Bindings) : Prop := inv.holds b ∧ b₀.Grows b

theorem knowledge_since (b₀ : Bindings) : Knowledge (inv.Since b₀) inv.knows :=
  inv.known.mono fun _ => And.left

/-- A request that a task may make is granted, if the tasks that it asks for keep the invariant. -/
theorem granted (ht : inv.allows t b₀) (hb₀ : inv.holds b₀)
    (hasked : ∀ t' b, Asks r b₀ t t' b → inv.allows t' b → inv.holds b →
      inv.holds (t'.run r b).2 ∧ b.Grows (t'.run r b).2 ∧
        ∀ s, (t'.run r b).1 = some s → inv.knows (t'.run r b).2 s)
    (b : Bindings) (q : Program.Request) (hb : inv.Since b₀ b) (hq : Licence r inv.knows t b₀ b q) :
    Program.Granted r (inv.Since b₀) inv.knows b q := by
  have hway : Underway inv.allows inv.holds t b₀ b := ⟨ht, hb₀, hb.1, hb.2⟩
  have hchange : ∀ {b'}, Change r inv.knows b₀ b t b' → inv.Since b₀ b' ∧ b.Grows b' :=
    fun h => ⟨⟨inv.changed hway h, hb.2.trans h.grows⟩, h.grows⟩
  cases hq with
  | node _ => exact ⟨hb, .refl b, by simp⟩
  | symbol _ => exact ⟨hb, .refl b, by simp⟩
  | @perform t' hask =>
      obtain ⟨hend, hgrows, hfound⟩ := hasked t' b hask (inv.asked hway hask) hb.1
      refine ⟨⟨hend, hb.2.trans hgrows⟩, hgrows, ?_⟩
      rintro _ ⟨rfl⟩
      exact hfound
  | report h => exact ⟨(hchange h).1, (hchange h).2, by simp⟩
  | alloc h => exact ⟨(hchange h).1, (hchange h).2, by simp⟩
  | setProp _ h => exact ⟨(hchange h).1, (hchange h).2, by simp⟩
  | markExported _ h => exact ⟨(hchange h).1, (hchange h).2, by simp⟩

/-- **Whatever may be performed keeps an invariant**, only adds to the state, and finds symbols that
are known. -/
theorem run (ht : inv.allows t b) (hb : inv.holds b) :
    inv.holds (t.run r b).2 ∧ b.Grows (t.run r b).2 ∧
      ∀ s, (t.run r b).1 = some s → inv.knows (t.run r b).2 s := by
  induction hrank : t.rank using Nat.strongRecOn generalizing t b with
  | ind rank ih =>
      subst hrank
      have hrun := (t.safe (r := r) (inv.knowledge_since b) ⟨hb, .refl b⟩).run
        (inv.granted ht hb fun t' c hask ht' hc => ih t'.rank hask.rank_lt ht' hc rfl) ⟨hb, .refl b⟩
      rw [Task.run_program] at hrun
      exact ⟨hrun.2.1.1, hrun.2.2, hrun.1⟩

/-- What is kept while a part of a task is performed. -/
abbrev setting (t : Task) (b : Bindings) : Setting :=
  ⟨r, inv.Since b, inv.knows, inv.knowledge_since b, t, b⟩

theorem run_part (ht : inv.allows t b) (hb : inv.holds b) {α : Type} {p : Program α}
    {Q : α → Bindings → Prop} (hp : (inv.setting t b).Safe p Q b) :
    Q (p.run r b).1 (p.run r b).2 ∧ inv.holds (p.run r b).2 := by
  have hrun := hp.run (inv.granted ht hb fun t' c _ ht' hc => inv.run ht' hc) ⟨hb, .refl b⟩
  exact ⟨hrun.1, hrun.2.1.1⟩

end Invariant

section steps

variable {r : Resolver} {R : Bindings → Bindings → Prop} {t : Task} {b : Bindings}

/-- **What performing a task goes through**, if every change that may be made is one of the given
steps, and these keep what is asked of states. -/
theorem Task.steps (allows : Task → Bindings → Prop) (holds : Bindings → Prop)
    (hasked : ∀ {t t' : Task} {b₀ b : Bindings}, Underway allows holds t b₀ b →
      Asks r b₀ t t' b → allows t' b)
    (hstep : ∀ {t : Task} {b₀ b b' : Bindings}, Underway allows holds t b₀ b →
      Change r (fun _ _ => True) b₀ b t b' → R b b')
    (hkept : ∀ {b b' : Bindings}, R b b' → holds b → holds b') (ht : allows t b) (hb : holds b) :
    Relation.ReflTransGen R b (t.run r b).2 := by
  have hforget : ∀ {t : Task} {b₀ c : Bindings},
      Underway allows (fun c => holds c ∧ Relation.ReflTransGen R b c) t b₀ c →
      Underway allows holds t b₀ c :=
    fun h => ⟨h.allowed, h.started.1, h.holds.1, h.grows⟩
  let inv : Invariant r :=
    { allows := allows
      holds := fun c => holds c ∧ Relation.ReflTransGen R b c
      knows := fun _ _ => True
      known := .any _
      asked := fun hway hask => hasked (hforget hway) hask
      changed := fun hway hchange =>
        have hs := hstep (hforget hway) hchange
        ⟨hkept hs hway.holds.1, hway.holds.2.tail hs⟩ }
  exact (inv.run (t := t) ht ⟨hb, .refl⟩).1.2

theorem Bindings.grows_of_steps (hR : ∀ {b b' : Bindings}, R b b' → b.Grows b') {b' : Bindings}
    (h : Relation.ReflTransGen R b b') : b.Grows b' := by
  induction h with
  | refl => exact .refl b
  | tail _ hs ih => exact ih.trans (hR hs)

end steps

/-! ### Growth -/

/-- **Whatever is performed only adds to the state.** -/
theorem Task.run_grows (r : Resolver) (t : Task) (b : Bindings) : b.Grows (t.run r b).2 := by
  let inv : Invariant r :=
    { allows := fun _ _ => True
      holds := fun _ => True
      knows := fun _ _ => True
      known := .any _
      asked := fun _ _ => trivial
      changed := fun _ _ => trivial }
  exact (inv.run (t := t) trivial trivial).2.1

/-- So does any program. -/
theorem Program.run_grows (r : Resolver) {α : Type} (p : Program α) (b : Bindings) :
    b.Grows (p.run r b).2 := by
  induction p generalizing b with
  | done a => exact .refl b
  | ask q next ih =>
      have hanswer : b.Grows (q.answer r b).2 := by
        cases q with
        | node _ => exact .refl b
        | symbol _ => exact .refl b
        | report d => exact .report b d
        | alloc s => exact .alloc b s
        | setProp id key t => exact .setProp b id key t
        | markExported id => exact .markExported b id
        | perform t => exact t.run_grows r b
      exact hanswer.trans (ih _ _)

namespace Resolver

variable (r : Resolver) (b : Bindings)

theorem resolve_grows (levels : Nat) (id : NodeId) (scope : Option SymbolId)
    (options : ResolveOptions) : b.Grows (r.resolve levels id scope options b).2 :=
  Task.run_grows r (.resolve levels id scope options) b

theorem bind_grows (levels : Nat) (target : NodeId) (value : Option NodeId)
    (scope : Option SymbolId) : b.Grows (r.bind levels target value scope b).2 :=
  Task.run_grows r (.bind levels target value scope) b

theorem declareThrough_grows (fuel : Nat) (id : NodeId) : b.Grows (r.declareThrough fuel id b) :=
  Task.run_grows r (.declare fuel id) b

theorem assignThrough_grows (fuel : Nat) (id : NodeId) : b.Grows (r.assignThrough fuel id b) :=
  Task.run_grows r (.assign fuel id) b

theorem declareVariable_grows (kind : DeclarationKind) (d : Declarator) :
    b.Grows (r.declareVariable kind b d) := by
  have hgrows := Program.run_grows r (Program.declareVariable kind d) b
  rwa [Program.run_declareVariable] at hgrows

theorem exportDeclaration_grows (declaration : NodeId) :
    b.Grows (r.exportDeclaration declaration b) := by
  have hgrows := Program.run_grows r (Program.exportDeclaration declaration) b
  rwa [Program.run_exportDeclaration] at hgrows

theorem memberKey?_grows (levels : Nat) (property : NodeId) (computed : Bool)
    (scope : Option SymbolId) :
    b.Grows (r.memberKey? (r.resolve levels) property computed scope b).2 := by
  have hgrows := Program.run_grows r (Program.memberKey? r.keys levels property computed scope) b
  rwa [Program.run_memberKey?] at hgrows

theorem bindDeclarators_grows (declarators : List Declarator) :
    b.Grows (r.bindDeclarators declarators b).2 := by
  have hgrows := Program.run_grows r (Program.bindDeclarators declarators) b
  rwa [Program.run_bindDeclarators] at hgrows

theorem addMethods_grows (owner : SymbolId) (methods : List Entry) :
    b.Grows (r.addMethods owner methods b) := by
  have hgrows := Program.run_grows r (methods.forM (Program.addMethod owner)) b
  rwa [Program.run_addMethods] at hgrows

theorem addProperties_grows (levels : Nat) (scope : Option SymbolId) (options : ResolveOptions)
    (owner : SymbolId) (properties : List Entry) :
    b.Grows (r.addProperties (r.resolve levels) scope options owner properties b) := by
  have hgrows := Program.run_grows r
    (properties.forM (Program.addProperty levels scope options owner)) b
  rwa [Program.run_addProperties] at hgrows

end Resolver

end ExportSurface

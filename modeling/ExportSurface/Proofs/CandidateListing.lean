/-
The candidates of a module: complete, without repetition, and in order.

Three scans of the arena have to agree.  A class lists the values of its methods when it is visited,
and these pass themselves over when their own turn comes, since another scan has collected the
method values of all class bodies.  An object literal is listed if a third scan found a name for it,
in a variable, an assignment or a property.  `Ast.candidatesAt_listings` says what a single visit
contributes, and the rest is about the arena: where nothing is referred to twice, no two visits
contribute the same node.

Main definitions:

* `Ast.GivesName`, `Ast.IsNamed` — the bindings that give a value its name;
* `Ast.IsMethodValue` — the function value of a method;
* `Ast.Lists` — the nodes that ought to be listed, each with its kind;
* `Ast.SoundClasses` — what the listing takes for granted of class bodies.

Main results:

* `Ast.mem_inferredNames_iff` — **a value has an inferred name exactly if a binding gives it one**;
* `Ast.candidatesAt_listings` — what one visit contributes;
* `Ast.mem_listings_iff` — **all visits together list what ought to be listed**;
* `Ast.nodup_listed` — **no node is listed twice**;
* `Ast.candidates_listed_once` — the candidates are these nodes, each once, in strict order.
-/

import ExportSurface.Ast.Candidate
import ExportSurface.Proofs.ArenaLayout
import ExportSurface.Proofs.Changes
import ExportSurface.Proofs.MemberChains
import Mathlib.Data.List.Nodup
import Mathlib.Data.List.Pairwise
import Mathlib.Tactic.IntervalCases

set_option autoImplicit false

namespace ExportSurface

theorem Candidate.le_iff {a b : Candidate} :
    a.le b = true ↔ a.line < b.line ∨ a.line = b.line ∧ a.node ≤ b.node := by
  simp [Candidate.le]

namespace Ast

variable {ast : Ast} {id value : NodeId}

/-! ### The nodes of an arena by their positions -/

theorem map_node_toList (ast : Ast) :
    ast.nodes.toList.map (·.node) = (List.range ast.size).map ast.node := by
  apply List.ext_getElem
  · simp [size]
  · intro i hi _
    have hsize : i < ast.nodes.size := by simpa using hi
    simp [node, hsize]

theorem exists_mem_nodes_iff (P : Node → Prop) :
    (∃ n ∈ ast.nodes.toList, P n.node) ↔ ∃ id < ast.size, P (ast.node id) := by
  have hmem : ∀ n, n ∈ ast.nodes.toList.map (·.node) ↔ n ∈ (List.range ast.size).map ast.node := by
    rw [map_node_toList]
    exact fun _ => Iff.rfl
  constructor
  · rintro ⟨n, hn, hP⟩
    obtain ⟨id, hid, hnode⟩ := List.mem_map.1 ((hmem n.node).1 (List.mem_map_of_mem hn))
    exact ⟨id, List.mem_range.1 hid, hnode ▸ hP⟩
  · rintro ⟨id, hid, hP⟩
    obtain ⟨n, hn, hnode⟩ := List.mem_map.1
      ((hmem (ast.node id)).2 (List.mem_map_of_mem (List.mem_range.2 hid)))
    exact ⟨n, hn, hnode ▸ hP⟩

/-- No position is referred to twice. -/
def ReferredOnce (ast : Ast) : Prop := ∀ id, ast.referenceCount id ≤ 1

theorem ReferredOnce.nodup (h : ast.ReferredOnce) :
    ((List.range ast.size).flatMap fun id => (ast.node id).references).Nodup := by
  have hnodup : (referencesOf ast.nodes.toList).Nodup := List.nodup_iff_count_le_one.2 h
  have heq : referencesOf ast.nodes.toList =
      (List.range ast.size).flatMap fun id => (ast.node id).references := by
    rw [referencesOf, ← List.flatMap_map, map_node_toList, List.flatMap_map]
  rwa [heq] at hnodup

theorem ReferredOnce.nodup_references (h : ast.ReferredOnce) (id : NodeId) :
    (ast.node id).references.Nodup := by
  by_cases hid : id < ast.size
  · exact (List.nodup_flatMap.1 h.nodup).1 id (List.mem_range.2 hid)
  · have hnode : ast.node id = .other "" := by
      by_contra hne
      exact hid (lt_size_of_node_ne hne)
    rw [hnode]
    exact List.nodup_nil

theorem lt_size_of_mem_references {part : NodeId} (h : part ∈ (ast.node id).references) :
    id < ast.size := by
  apply lt_size_of_node_ne
  intro hnode
  rw [hnode] at h
  exact absurd h List.not_mem_nil

/-- Two nodes that refer to the same position are one node. -/
theorem ReferredOnce.eq (h : ast.ReferredOnce) {part id id' : NodeId}
    (hid : part ∈ (ast.node id).references) (hid' : part ∈ (ast.node id').references) :
    id = id' := by
  by_contra hne
  have hpair := (List.nodup_flatMap.1 h.nodup).2
  have hsymm : Std.Symm (Function.onFun List.Disjoint fun id => (ast.node id).references) :=
    ⟨fun _ _ hdisjoint _ h h' => hdisjoint h' h⟩
  exact hpair.forall (List.mem_range.2 (lt_size_of_mem_references hid))
    (List.mem_range.2 (lt_size_of_mem_references hid')) hne hid hid'

/-! ### Names of values -/

/-- A node gives a value its name: it declares a variable with this initialiser, stores it at a
target with a path, or has it as the value of a property with a static key. -/
inductive GivesName (ast : Ast) (value : NodeId) : Node → Prop
  | declarator {kind : DeclarationKind} {declarators : List Declarator} {d : Declarator}
      {name : String} : d ∈ declarators → d.init = some value →
      ast.node d.target = .identifier name →
      GivesName ast value (.variableDeclaration kind declarators)
  | assignment {target : NodeId} {path : String} : ast.HasPath target path →
      GivesName ast value (.assignment target value)
  | property {properties : List Entry} {p : Entry} {key : String} : p ∈ properties →
      p.value = value → p.computed = false → ast.staticKey? p.key = some key →
      GivesName ast value (.object properties)

/-- Some node of the arena gives the value its name. -/
def IsNamed (ast : Ast) (value : NodeId) : Prop := ∃ id, ast.GivesName value (ast.node id)

theorem identifierName?_eq_some_iff {name : String} :
    ast.identifierName? id = some name ↔ ast.node id = .identifier name := by
  rw [identifierName?]
  split <;> simp_all

/-- A value is named after a row of steps if it was named before or a step names it. -/
theorem mem_foldl_names {α : Type} {step : Names → α → Names} (gives : α → Prop)
    (hstep : ∀ names a, value ∈ step names a ↔ value ∈ names ∨ gives a) (names : Names)
    (as : List α) : value ∈ as.foldl step names ↔ value ∈ names ∨ ∃ a ∈ as, gives a := by
  induction as generalizing names with
  | nil => simp
  | cons a as ih =>
      rw [List.foldl_cons, ih, hstep, or_assoc]
      simp only [List.exists_mem_cons_iff]

theorem mem_nameParts_iff {names : Names} {n : Node} :
    value ∈ ast.nameParts names n ↔ value ∈ names ∨ ast.GivesName value n := by
  cases n with
  | variableDeclaration kind declarators =>
      refine (mem_foldl_names
        (fun d => d.init = some value ∧ ∃ name, ast.identifierName? d.target = some name)
        (fun names d => ?_) names declarators).trans (or_congr_right ⟨?_, ?_⟩)
      · cases d.init with
        | none => simp
        | some init => cases ast.identifierName? d.target <;> simp [or_comm]
      · rintro ⟨d, hd, hinit, name, hname⟩
        exact .declarator hd hinit (identifierName?_eq_some_iff.1 hname)
      · intro h
        cases h with
        | declarator hd hinit hname => exact ⟨_, hd, hinit, _, identifierName?_eq_some_iff.2 hname⟩
  | assignment target stored =>
      rw [nameParts]
      cases hpath : ast.memberPath? target with
      | none =>
          refine (or_iff_left ?_).symm
          intro h
          cases h with
          | assignment h => simp [memberPath?_eq_some_iff.2 h] at hpath
      | some path =>
          rw [Std.HashMap.mem_insert, beq_iff_eq, or_comm]
          refine or_congr_right ⟨?_, ?_⟩
          · rintro rfl
            exact .assignment (memberPath?_eq_some_iff.1 hpath)
          · intro h
            cases h
            rfl
  | object properties =>
      refine (mem_foldl_names (fun p => p.value = value ∧ ∃ key, ast.entryKey? p = some key)
        (fun names p => ?_) names properties).trans (or_congr_right ⟨?_, ?_⟩)
      · cases ast.entryKey? p with
        | none => simp
        | some key =>
            by_cases hnamed : names.contains p.value
            · have hmem : p.value = value → value ∈ names := by
                rintro rfl
                exact Std.HashMap.contains_iff_mem.1 hnamed
              simpa [hnamed] using hmem
            · simp [hnamed, or_comm]
      · rintro ⟨p, hp, hvalue, key, hkey⟩
        rw [entryKey?, Option.ite_none_left_eq_some] at hkey
        exact .property hp hvalue (by simpa using hkey.1) hkey.2
      · intro h
        cases h with
        | property hp hvalue hcomputed hkey =>
            exact ⟨_, hp, hvalue, _, by rw [entryKey?, hcomputed]; exact hkey⟩
  | _ => exact (or_iff_left (by intro h; cases h)).symm

/-- **A value has an inferred name exactly if a binding gives it one.** -/
theorem mem_inferredNames_iff : value ∈ ast.inferredNames ↔ ast.IsNamed value := by
  have hnames : value ∈ ast.inferredNames ↔
      ∃ n ∈ ast.nodes.toList, ast.GivesName value n.node := by
    rw [inferredNames, ← Array.foldl_toList,
      mem_foldl_names (fun n : SpannedNode => ast.GivesName value n.node)
        fun _ _ => mem_nameParts_iff]
    exact or_iff_right Std.HashMap.not_mem_empty
  rw [hnames, exists_mem_nodes_iff, IsNamed]
  constructor
  · rintro ⟨id, -, h⟩
    exact ⟨id, h⟩
  · rintro ⟨id, h⟩
    refine ⟨id, lt_size_of_node_ne ?_, h⟩
    intro hnode
    rw [hnode] at h
    cases h

/-! ### What ought to be listed -/

/-- The function value of a method. -/
def IsMethodValue (ast : Ast) (id : NodeId) : Prop :=
  ∃ body methods, ast.node body = .classBody methods ∧ ∃ m ∈ methods, m.value = id

/-- The nodes that ought to be listed, each with its kind. -/
inductive Lists (ast : Ast) (id : NodeId) : CandidateKind → Prop
  | functionDeclaration {name : Option NodeId} : ast.node id = .functionDeclaration name →
      Lists ast id .function
  | classDeclaration {name : Option NodeId} {body : NodeId} :
      ast.node id = .classDeclaration name body → Lists ast id .classDefinition
  | method : (ast.node id).isFunctionValue = true → ast.IsMethodValue id → Lists ast id .method
  | function : (ast.node id).isFunctionValue = true → ¬ ast.IsMethodValue id →
      Lists ast id .function
  | object {properties : List Entry} : ast.node id = .object properties → ast.IsNamed id →
      Lists ast id .object

/-- Every class body belongs to exactly one class, and its methods are functions. -/
structure SoundClasses (ast : Ast) : Prop where
  owned : ∀ body methods, ast.node body = .classBody methods →
    ∃! c, ∃ name, ast.node c = .classDeclaration name body
  functions : ∀ id, ast.IsMethodValue id → (ast.node id).isFunctionValue = true

theorem mem_methodValues_iff : id ∈ ast.methodValues ↔ ast.IsMethodValue id := by
  rw [methodValues, List.mem_flatMap]
  constructor
  · rintro ⟨n, hn, hid⟩
    cases hnode : n.node <;> simp only [hnode, List.not_mem_nil] at hid
    case classBody methods =>
      obtain ⟨body, -, hbody⟩ :=
        (exists_mem_nodes_iff (· = Node.classBody methods)).1 ⟨n, hn, hnode⟩
      exact ⟨body, methods, hbody, List.mem_map.1 hid⟩
  · rintro ⟨body, methods, hbody, hm⟩
    obtain ⟨n, hn, hnode⟩ := (exists_mem_nodes_iff (· = Node.classBody methods)).2
      ⟨body, lt_size_of_node_ne (by simp [hbody]), hbody⟩
    refine ⟨n, hn, ?_⟩
    simp only [hnode]
    exact List.mem_map.2 hm

/-! ### What one visit contributes -/

/-- The values of the methods of a class. -/
def methodsOf (ast : Ast) (id : NodeId) : List NodeId :=
  match ast.node id with
  | .classDeclaration _ body =>
      match ast.node body with
      | .classBody methods => methods.map (·.value)
      | _ => []
  | _ => []

/-- The kind under which a node lists itself. -/
def ownKind? (ast : Ast) (id : NodeId) : Option CandidateKind :=
  match ast.node id with
  | .functionDeclaration _ => some .function
  | .classDeclaration _ _ => some .classDefinition
  | .functionExpression _ | .arrowFunction =>
      if ast.methodValues.contains id then none else some .function
  | .object _ => if id ∈ ast.inferredNames then some .object else none
  | _ => none

/-- The nodes that a visit lists, with their kinds. -/
def listingsAt (ast : Ast) (id : NodeId) : List (NodeId × CandidateKind) :=
  (ast.methodsOf id).map (·, .method) ++ (ast.ownKind? id).toList.map (id, ·)

/-- What one visit contributes: the methods of a class, and then the node itself. -/
theorem candidatesAt_listings (id : NodeId) :
    (ast.candidatesAt ast.inferredNames ast.methodValues.contains id).map
      (fun c => (c.node, c.kind)) = ast.listingsAt id := by
  rw [listingsAt, methodsOf, ownKind?, candidatesAt]
  cases ast.node id with
  | classDeclaration name body =>
      dsimp only
      cases ast.node body <;> simp [methodCandidate]
  | object properties =>
      by_cases hnamed : id ∈ ast.inferredNames
      · simp [hnamed]
      · simp [hnamed]
  | functionExpression name => by_cases hmethod : id ∈ ast.methodValues <;> simp [hmethod]
  | arrowFunction => by_cases hmethod : id ∈ ast.methodValues <;> simp [hmethod]
  | _ => simp

theorem line_of_mem_candidatesAt {names : Names} {methods : NodeId → Bool} {c : Candidate}
    (h : c ∈ ast.candidatesAt names methods id) : c.line = (ast.span c.node).start := by
  rw [candidatesAt] at h
  cases hnode : ast.node id with
  | classDeclaration name body =>
      cases hbody : ast.node body <;> simp [hnode, hbody] at h
      case classBody =>
        rcases h with ⟨m, -, rfl⟩ | rfl
        · rfl
        · rfl
      all_goals rw [h]
  | object properties =>
      cases hname : names[id]? <;> simp [hnode, hname] at h
      rw [h]
  | functionDeclaration name => simp [hnode] at h; rw [h]
  | functionExpression name => simp [hnode] at h; rw [h.2]
  | arrowFunction => simp [hnode] at h; rw [h.2]
  | _ => simp [hnode] at h

/-! ### All visits together -/

theorem mem_methodsOf_iff : value ∈ ast.methodsOf id ↔ ∃ name body methods,
    ast.node id = .classDeclaration name body ∧ ast.node body = .classBody methods ∧
      ∃ m ∈ methods, m.value = value := by
  rw [methodsOf]
  cases ast.node id with
  | classDeclaration name body => cases hbody : ast.node body <;> simp [hbody]
  | _ => simp

theorem SoundClasses.not_isMethodValue (h : ast.SoundClasses)
    (hne : (ast.node id).isFunctionValue = false) : ¬ ast.IsMethodValue id :=
  fun hmethod => Bool.false_ne_true (hne.symm.trans (h.functions id hmethod))

theorem lists_of_ownKind? {kind : CandidateKind} (hclasses : ast.SoundClasses)
    (h : ast.ownKind? id = some kind) : ast.Lists id kind ∧ ¬ ast.IsMethodValue id := by
  rw [ownKind?] at h
  cases hnode : ast.node id <;> simp only [hnode, reduceCtorEq, Option.some.injEq] at h
  case functionDeclaration name =>
    exact h ▸ ⟨.functionDeclaration hnode, hclasses.not_isMethodValue (hnode ▸ rfl)⟩
  case classDeclaration name body =>
    exact h ▸ ⟨.classDeclaration hnode, hclasses.not_isMethodValue (hnode ▸ rfl)⟩
  case object properties =>
    obtain ⟨hnamed, hkind⟩ := Option.ite_none_right_eq_some.1 h
    refine Option.some.inj hkind ▸ ⟨?_, hclasses.not_isMethodValue (hnode ▸ rfl)⟩
    exact .object hnode (mem_inferredNames_iff.1 hnamed)
  all_goals
    obtain ⟨hvalue, hkind⟩ := Option.ite_none_left_eq_some.1 h
    have hmethod : ¬ ast.IsMethodValue id := by
      rwa [List.contains_iff_mem, mem_methodValues_iff] at hvalue
    refine Option.some.inj hkind ▸ ⟨?_, hmethod⟩
    exact .function (by simp [hnode, Node.isFunctionValue]) hmethod

theorem ownKind?_of_lists {kind : CandidateKind} (h : ast.Lists id kind)
    (hmethod : ¬ ast.IsMethodValue id) : ast.ownKind? id = some kind := by
  cases h with
  | functionDeclaration hnode => simp [ownKind?, hnode]
  | classDeclaration hnode => simp [ownKind?, hnode]
  | method _ hvalue => exact absurd hvalue hmethod
  | function hfunction _ =>
      have hvalue : id ∉ ast.methodValues := by rwa [mem_methodValues_iff]
      cases hnode : ast.node id <;> rw [hnode] at hfunction <;> cases hfunction
      all_goals simp [ownKind?, hnode, hvalue]
  | object hnode hnamed => simp [ownKind?, hnode, mem_inferredNames_iff.2 hnamed]

/-- A method value is listed as a method only. -/
theorem Lists.eq_method {kind : CandidateKind} (h : ast.Lists id kind)
    (hclasses : ast.SoundClasses) (hmethod : ast.IsMethodValue id) : kind = .method := by
  cases h with
  | functionDeclaration hnode =>
      exact absurd hmethod (hclasses.not_isMethodValue (hnode ▸ rfl))
  | classDeclaration hnode =>
      exact absurd hmethod (hclasses.not_isMethodValue (hnode ▸ rfl))
  | method _ _ => rfl
  | function _ hvalue => exact absurd hmethod hvalue
  | object hnode _ => exact absurd hmethod (hclasses.not_isMethodValue (hnode ▸ rfl))

theorem mem_listingsAt_iff {kind : CandidateKind} : (value, kind) ∈ ast.listingsAt id ↔
    (kind = .method ∧ value ∈ ast.methodsOf id) ∨ (value = id ∧ ast.ownKind? id = some kind) := by
  simp only [listingsAt, List.mem_append, List.mem_map, Option.mem_toList,
    Prod.mk.injEq]
  grind

theorem isMethodValue_of_mem_methodsOf (h : value ∈ ast.methodsOf id) :
    ast.IsMethodValue value := by
  obtain ⟨_, body, methods, -, hbody, hm⟩ := mem_methodsOf_iff.1 h
  exact ⟨body, methods, hbody, hm⟩

/-- **All visits together list what ought to be listed.** -/
theorem mem_listings_iff {kind : CandidateKind} (hclasses : ast.SoundClasses) :
    (value, kind) ∈ (List.range ast.size).flatMap ast.listingsAt ↔ ast.Lists value kind := by
  simp only [List.mem_flatMap, mem_listingsAt_iff]
  constructor
  · rintro ⟨id, -, ⟨rfl, hvalue⟩ | ⟨rfl, hown⟩⟩
    · have hmethod := isMethodValue_of_mem_methodsOf hvalue
      exact .method (hclasses.functions value hmethod) hmethod
    · exact (lists_of_ownKind? hclasses hown).1
  · intro h
    by_cases hmethod : ast.IsMethodValue value
    · -- The class that owns the body lists the method.
      have hkind := h.eq_method hclasses hmethod
      obtain ⟨body, methods, hbody, hm⟩ := hmethod
      obtain ⟨c, ⟨name, hc⟩, -⟩ := hclasses.owned body methods hbody
      have hlt : c < ast.size := lt_size_of_node_ne (by simp [hc])
      refine ⟨c, List.mem_range.2 hlt, .inl ⟨hkind, ?_⟩⟩
      exact mem_methodsOf_iff.2 ⟨name, body, methods, hc, hbody, hm⟩
    · have hown := ownKind?_of_lists h hmethod
      have hlt : value < ast.size := by
        apply lt_size_of_node_ne
        intro hnode
        simp [ownKind?, hnode] at hown
      exact ⟨value, List.mem_range.2 hlt, .inr ⟨rfl, hown⟩⟩

/-! ### No node is listed twice -/

theorem ReferredOnce.nodup_methodsOf (h : ast.ReferredOnce) (id : NodeId) :
    (ast.methodsOf id).Nodup := by
  rw [methodsOf]
  cases ast.node id with
  | classDeclaration name body =>
      dsimp only
      cases hbody : ast.node body with
      | classBody methods =>
          have hnodup : (methods.flatMap fun m => [m.key, m.value]).Nodup := by
            have hrefs := h.nodup_references body
            rwa [hbody, Node.references] at hrefs
          have hsub : (methods.map (·.value)).Sublist
              (methods.flatMap fun m => [m.key, m.value]) := by
            clear hbody hnodup
            induction methods with
            | nil => exact .slnil
            | cons m methods ih => exact (ih.cons_cons m.value).cons m.key
          exact hnodup.sublist hsub
      | _ => exact List.nodup_nil
  | _ => exact List.nodup_nil

/-- A method is listed by one class only. -/
theorem ReferredOnce.eq_of_mem_methodsOf (h : ast.ReferredOnce) {id id' : NodeId}
    (hid : value ∈ ast.methodsOf id) (hid' : value ∈ ast.methodsOf id') : id = id' := by
  have hpart : ∀ {body : NodeId} {methods : List Entry}, ast.node body = .classBody methods →
      (∃ m ∈ methods, m.value = value) → value ∈ (ast.node body).references := by
    rintro body methods hbody ⟨m, hm, rfl⟩
    rw [hbody, Node.references]
    exact List.mem_flatMap.2 ⟨m, hm, by simp⟩
  obtain ⟨name, body, methods, hclass, hbody, hm⟩ := mem_methodsOf_iff.1 hid
  obtain ⟨name', body', methods', hclass', hbody', hm'⟩ := mem_methodsOf_iff.1 hid'
  obtain rfl : body = body' := h.eq (hpart hbody hm) (hpart hbody' hm')
  have hid : body ∈ (ast.node id).references := by simp [hclass, Node.references]
  exact h.eq hid (by simp [hclass', Node.references])

theorem map_fst_listingsAt (id : NodeId) : (ast.listingsAt id).map Prod.fst =
    ast.methodsOf id ++ (ast.ownKind? id).toList.map fun _ => id := by
  simp [listingsAt, Function.comp_def]

/-- **No node is listed twice.** -/
theorem nodup_listed (honce : ast.ReferredOnce) (hclasses : ast.SoundClasses) :
    ((List.range ast.size).flatMap fun id => (ast.listingsAt id).map Prod.fst).Nodup := by
  have hown : ∀ {id x : NodeId}, x ∈ (ast.ownKind? id).toList.map (fun _ => id) →
      x = id ∧ ¬ ast.IsMethodValue x := by
    intro id x hx
    obtain ⟨kind, hkind, rfl⟩ := List.mem_map.1 hx
    exact ⟨rfl, (lists_of_ownKind? hclasses (Option.mem_toList.1 hkind)).2⟩
  simp only [map_fst_listingsAt]
  refine List.nodup_flatMap.2 ⟨?_, ?_⟩
  · intro id _
    refine List.nodup_append.2 ⟨honce.nodup_methodsOf id, ?_, ?_⟩
    · cases ast.ownKind? id <;> simp
    · rintro x hx _ hx' rfl
      exact (hown hx').2 (isMethodValue_of_mem_methodsOf hx)
  · refine List.nodup_range.imp ?_
    intro id id' hne x hx hx'
    rcases List.mem_append.1 hx with hx | hx
    · rcases List.mem_append.1 hx' with hx' | hx'
      · exact hne (honce.eq_of_mem_methodsOf hx hx')
      · exact (hown hx').2 (isMethodValue_of_mem_methodsOf hx)
    · rcases List.mem_append.1 hx' with hx' | hx'
      · exact (hown hx).2 (isMethodValue_of_mem_methodsOf hx')
      · exact hne ((hown hx).1.symm.trans (hown hx').1)

/-! ### The list of candidates -/

theorem candidates_perm (ast : Ast) : ast.candidates.Perm ((List.range ast.size).flatMap
    (ast.candidatesAt ast.inferredNames ast.methodValues.contains)) :=
  List.mergeSort_perm _ _

theorem map_candidates_perm (ast : Ast) : (ast.candidates.map fun c => (c.node, c.kind)).Perm
    ((List.range ast.size).flatMap ast.listingsAt) := by
  have hperm := ast.candidates_perm.map fun c => (c.node, c.kind)
  rw [List.map_flatMap] at hperm
  simpa only [candidatesAt_listings] using hperm

theorem pairwise_candidates (ast : Ast) : ast.candidates.Pairwise (Candidate.le · · = true) := by
  refine List.pairwise_mergeSort ?_ ?_ _
  · intro a b c hab hbc
    rw [Candidate.le_iff] at hab hbc ⊢
    rcases hab with hab | ⟨hab, hnode⟩
    · rcases hbc with hbc | ⟨hbc, -⟩
      · exact .inl (hab.trans hbc)
      · exact .inl (hbc ▸ hab)
    · rcases hbc with hbc | ⟨hbc, hnode'⟩
      · exact .inl (hab ▸ hbc)
      · exact .inr ⟨hab.trans hbc, Nat.le_trans hnode hnode'⟩
  · intro a b
    rw [Bool.or_eq_true, Candidate.le_iff, Candidate.le_iff]
    rcases Nat.lt_trichotomy a.line b.line with hline | hline | hline
    · exact .inl (.inl hline)
    · exact (Nat.le_total a.node b.node).imp (.inr ⟨hline, ·⟩) (.inr ⟨hline.symm, ·⟩)
    · exact .inr (.inl hline)

/-- **The candidates of a module are complete, without repetition, and in order.**  Where nothing is
referred to twice, every class body belongs to one class and methods are functions, no node is
listed twice, the nodes that ought to be listed are listed under their kinds, and no others are; and
the list ascends strictly by the line on which the nodes start and then by their positions. -/
theorem candidates_listed_once (ast : Ast) (honce : ast.ReferredOnce)
    (hclasses : ast.SoundClasses) :
    (ast.candidates.map (·.node)).Nodup ∧
    (∀ id kind, (∃ c ∈ ast.candidates, c.node = id ∧ c.kind = kind) ↔ ast.Lists id kind) ∧
    (∀ c ∈ ast.candidates, c.line = (ast.span c.node).start) ∧
    ast.candidates.Pairwise fun a b => a.line < b.line ∨ a.line = b.line ∧ a.node < b.node := by
  have hperm := ast.map_candidates_perm
  have hnodup : (ast.candidates.map (·.node)).Nodup := by
    have hnodes := hperm.map Prod.fst
    rw [List.map_map, List.map_flatMap] at hnodes
    exact hnodes.nodup_iff.2 (nodup_listed honce hclasses)
  refine ⟨hnodup, ?_, ?_, ?_⟩
  · intro id kind
    rw [← mem_listings_iff hclasses, ← hperm.mem_iff, List.mem_map]
    simp only [Prod.mk.injEq]
  · intro c hc
    obtain ⟨id, -, hid⟩ := List.mem_flatMap.1 (ast.candidates_perm.mem_iff.1 hc)
    exact line_of_mem_candidatesAt hid
  · -- Two candidates of one line have different nodes, so the order is strict.
    have hne : ast.candidates.Pairwise fun a b => a.node ≠ b.node := List.pairwise_map.1 hnodup
    refine (ast.pairwise_candidates.and hne).imp ?_
    rintro a b ⟨hle, hnode⟩
    rcases Candidate.le_iff.1 hle with hline | ⟨hline, hle⟩
    · exact .inl hline
    · exact .inr ⟨hline, Nat.lt_of_le_of_ne hle hnode⟩

/-- The arena of `class C { m() {} } const o = { f: () => {} }; ({}); a.b = {};` over four lines.
The object of the third line has no name; the access of the last one stands before its object. -/
def listsMethodsFirst : Ast where
  nodes := #[⟨.identifier "C", ⟨1, 1⟩⟩, ⟨.identifier "m", ⟨1, 1⟩⟩,
    ⟨.functionExpression none, ⟨1, 1⟩⟩, ⟨.classBody [⟨1, 2, false⟩], ⟨1, 1⟩⟩,
    ⟨.classDeclaration (some 0) 3, ⟨1, 1⟩⟩, ⟨.identifier "o", ⟨2, 2⟩⟩,
    ⟨.identifier "f", ⟨2, 2⟩⟩, ⟨.arrowFunction, ⟨2, 2⟩⟩, ⟨.object [⟨6, 7, false⟩], ⟨2, 2⟩⟩,
    ⟨.variableDeclaration .const [⟨5, some 8⟩], ⟨2, 2⟩⟩, ⟨.object [], ⟨3, 3⟩⟩,
    ⟨.expressionStatement 10, ⟨3, 3⟩⟩, ⟨.member 13 14 false, ⟨4, 4⟩⟩, ⟨.identifier "a", ⟨4, 4⟩⟩,
    ⟨.identifier "b", ⟨4, 4⟩⟩, ⟨.object [], ⟨4, 4⟩⟩, ⟨.assignment 12 15, ⟨4, 4⟩⟩,
    ⟨.expressionStatement 16, ⟨4, 4⟩⟩, ⟨.program [4, 9, 11, 17], ⟨1, 1⟩⟩]
  program := 18

theorem listsMethodsFirst_classBody {body : NodeId} {methods : List Entry}
    (h : listsMethodsFirst.node body = .classBody methods) :
    body = 3 ∧ methods = [⟨1, 2, false⟩] := by
  have hne : listsMethodsFirst.node body ≠ .other "" := by simp [h]
  have hlt : body < 19 := lt_size_of_node_ne hne
  interval_cases body <;> cases h
  exact ⟨rfl, rfl⟩

theorem listsMethodsFirst_listed_once :
    listsMethodsFirst.ReferredOnce ∧ listsMethodsFirst.SoundClasses ∧
      (∃ c ∈ listsMethodsFirst.candidates, c.node = 2 ∧ c.kind = .method) ∧
      (∃ c ∈ listsMethodsFirst.candidates, c.node = 8 ∧ c.kind = .object) ∧
      ¬ (∃ c ∈ listsMethodsFirst.candidates, c.node = 10 ∧ c.kind = .object) ∧
      (∃ c ∈ listsMethodsFirst.candidates, c.node = 15 ∧ c.kind = .object) := by
  have honce : listsMethodsFirst.ReferredOnce := List.nodup_iff_count_le_one.1 (by decide)
  have hclasses : listsMethodsFirst.SoundClasses := by
    refine ⟨?_, ?_⟩
    · intro body methods hbody
      obtain ⟨rfl, rfl⟩ := listsMethodsFirst_classBody hbody
      refine ⟨4, ⟨some 0, rfl⟩, ?_⟩
      rintro c ⟨name, hc⟩
      have hne : listsMethodsFirst.node c ≠ .other "" := by simp [hc]
      have hlt : c < 19 := lt_size_of_node_ne hne
      interval_cases c <;> cases hc
      rfl
    · rintro id ⟨body, methods, hbody, m, hm, rfl⟩
      obtain ⟨rfl, rfl⟩ := listsMethodsFirst_classBody hbody
      obtain rfl := List.mem_singleton.1 hm
      rfl
  obtain ⟨-, hlists, -⟩ := candidates_listed_once listsMethodsFirst honce hclasses
  refine ⟨honce, hclasses, (hlists 2 .method).2 ?_, (hlists 8 .object).2 ?_, ?_,
    (hlists 15 .object).2 ?_⟩
  · exact .method rfl ⟨3, _, rfl, _, List.mem_singleton_self _, rfl⟩
  · have hname : listsMethodsFirst.node 5 = .identifier "o" := rfl
    exact .object rfl ⟨9, .declarator (List.mem_singleton_self _) rfl hname⟩
  · rw [hlists 10 .object]
    intro h
    cases h with
    | object _ hnamed =>
        obtain ⟨id, hid⟩ := hnamed
        have hne : listsMethodsFirst.node id ≠ .other "" := by
          intro hnode
          rw [hnode] at hid
          cases hid
        have hlt : id < 19 := lt_size_of_node_ne hne
        generalize hnode : listsMethodsFirst.node id = n at hid
        cases hid with
        | declarator hd hinit _ =>
            interval_cases id <;> cases hnode
            rw [List.mem_singleton.1 hd] at hinit
            cases hinit
        | assignment _ => interval_cases id <;> cases hnode
        | property hp hvalue _ _ =>
            interval_cases id <;> cases hnode
            · rw [List.mem_singleton.1 hp] at hvalue
              cases hvalue
            · cases hp
            · cases hp
  · have hpath : listsMethodsFirst.HasPath 12 "a.b" :=
      ⟨[13], ["a", ".b"], .access rfl rfl (.identifier rfl), rfl⟩
    exact .object rfl ⟨16, .assignment hpath⟩

end Ast

end ExportSurface

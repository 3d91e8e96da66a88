/-
Globals that a module does not mention have no influence on it.

A module can be bound with or without `module` and `exports`, and with or without `window`.  If it
mentions none of the names in which two such choices differ, the same diagnostics are reported and
the same nodes are exported.  The two runs mirror each other throughout both passes
(`Bindings.Mirrors`) from the states in which they start.

Main definitions:

* `Ast.Avoids` — a tree names none of some globals;
* `AnalysisOptions.seededDifferently` — the globals in which two choices differ.

Main results:

* `Bindings.mirrors_window`, `Bindings.mirrors_commonJs` — what seeding adds;
* `Resolver.bindModule_stays` — the runs from mirrored states mirror each other;
* `Analysis.ofAst_sameSurface` — **unmentioned globals make no difference**.
-/

import ExportSurface.Proofs.Mirroring

set_option autoImplicit false

namespace ExportSurface

open SymbolGraph (root)

/-! ### Trees that avoid names -/

/-- No identifier and no literal of the tree names a hidden entry. -/
def Ast.Avoids (ast : Ast) (hidden : List String) : Prop :=
  ∀ id < ast.size, ∀ name ∈ (ast.node id).mentioned, name ∉ hidden

namespace Ast.Avoids

variable {ast : Ast} {hidden : List String}

theorem mono {fewer : List String} (h : ast.Avoids hidden) (hsub : fewer ⊆ hidden) :
    ast.Avoids fewer :=
  fun id hid name hname hmem => h id hid name hname (hsub hmem)

theorem not_mem (h : ast.Avoids hidden) {id : NodeId} {name : String}
    (hname : name ∈ (ast.node id).mentioned) : name ∉ hidden := by
  refine h id (lt_size_of_node_ne fun hnode => ?_) name hname
  simp [hnode, Node.mentioned] at hname

end Ast.Avoids

/-- The same resolver from two states. -/
theorem Resolver.bindModule_stays {r : Resolver} (hkeys : r.keys = .direct) {hidden : List String}
    (havoid : r.ast.Avoids hidden) (hprototype : "prototype" ∉ hidden)
    (hdefault : defaultExport ∉ hidden) {ρ : SymbolId → SymbolId} {b b' : Bindings}
    (h : b.Mirrors ρ hidden b') :
    Bindings.Stays ρ hidden b (r.bindModule b) (r.bindModule b') := by
  have halike : Alike hidden (fun _ => True) r r :=
    { closed := fun _ _ _ _ => trivial
      node_eq := fun _ _ => rfl
      visible := fun _ _ _ => havoid.not_mem
      prototype_visible := hprototype
      default_visible := hdefault
      direct := hkeys
      resolved := by simp [hkeys] }
  have hrec := resolve_mirrored halike hkeys maxNesting
  have hdeclared : Bindings.Stays ρ hidden b (r.declare r.ast.program b)
      (r.declare r.ast.program b') :=
    declareThrough_stays halike hrec _ rfl (fun _ _ => trivial) h
  refine hdeclared.trans fun ρ' he => ?_
  exact assignThrough_stays halike hrec _ rfl (fun _ _ => trivial) (fun _ _ => trivial) he

/-! ### Seeded graphs -/

namespace SymbolGraph

theorem size_seed (commonJs window : Bool) :
    (empty.seed commonJs window).size = if commonJs = true then 3 else 1 := by
  cases commonJs <;> cases window <;> rfl

theorem prop?_seed (commonJs window : Bool) (n : SymbolId) (key : String) :
    (empty.seed commonJs window).prop? n key =
      if window = true ∧ n = root ∧ key = "window" then some root
      else if commonJs = true ∧ n = root ∧ key = "exports" then some 2
      else if commonJs = true ∧ n = root ∧ key = "module" then some 1
      else if commonJs = true ∧ n = 1 ∧ key = "exports" then some 2
      else none := by
  have hempty : ∀ n key, empty.prop? n key = none := by
    intro n key
    rw [prop?, get_empty]
    rfl
  have hsize : empty.size = 1 := rfl
  have hobject : (Symbol.object none).props = .empty := rfl
  cases commonJs <;> cases window <;>
    simp [seed, prop?_setProp, prop?_alloc, hempty, hsize, hobject, root]

theorem face_seed (commonJs window : Bool) (n : SymbolId) :
    ((empty.seed commonJs window).get n).face =
      if commonJs = true ∧ (n = 1 ∨ n = 2) then .object none else .placeholder := by
  have hsize : empty.size = 1 := rfl
  have hobject : (Symbol.object none).face = .object none := rfl
  have hplaceholder : Symbol.placeholder.face = .placeholder := rfl
  cases commonJs <;> cases window <;>
    simp [seed, face_setProp, get_alloc, get_empty, hsize, apply_ite Symbol.face, hobject,
      hplaceholder] <;>
    grind

/-- No seeded symbol yields a key. -/
theorem key?_seed (commonJs window : Bool) (n : SymbolId) :
    ((empty.seed commonJs window).get n).key? = none := by
  have hface := congrArg Symbol.key? (face_seed commonJs window n)
  refine Eq.trans hface ?_
  split <;> rfl

theorem exported_seed (commonJs window : Bool) (n : SymbolId) :
    ((empty.seed commonJs window).get n).exported = false := by
  have hface := congrArg Symbol.exported (face_seed commonJs window n)
  refine Eq.trans hface ?_
  split <;> rfl

theorem value_seed (commonJs window : Bool) (n : SymbolId) :
    ((empty.seed commonJs window).get n).value = none := by
  have hface := congrArg Symbol.value (face_seed commonJs window n)
  refine Eq.trans hface ?_
  split <;> rfl

/-- No seeded symbol was made for a node. -/
theorem wraps_seed (commonJs window : Bool) (n : SymbolId) (target : NodeId) :
    ((empty.seed commonJs window).get n).wraps target = false := by
  rw [Symbol.wraps, value_seed]
  exact Bool.and_false _

end SymbolGraph

/-- The bindings in which a module starts. -/
def Bindings.seeded (commonJs window : Bool) : Bindings :=
  { graph := SymbolGraph.empty.seed commonJs window }

theorem Bindings.inRange_seeded (commonJs window : Bool) :
    (seeded commonJs window).graph.InRange := by
  rw [SymbolGraph.inRange_iff]
  intro n key t ht
  rw [seeded, SymbolGraph.prop?_seed] at ht
  rw [seeded, SymbolGraph.size_seed]
  cases commonJs <;> cases window <;> grind [root]

/-- Seeding `window` adds a loop at the global scope and nothing else. -/
theorem Bindings.renamed_window (commonJs : Bool) :
    Renamed id ["window"] (seeded commonJs false) (seeded commonJs true) where
  injective := Function.injective_id
  map_root := rfl
  root_lt := by
    rw [seeded, SymbolGraph.size_seed]
    cases commonJs <;> decide
  map_fresh := by simp [seeded, SymbolGraph.size_seed]
  map_lt := by simp [seeded, SymbolGraph.size_seed]
  face_eq := by
    intro n
    exact (SymbolGraph.face_seed ..).trans (SymbolGraph.face_seed ..).symm
  prop?_eq := by
    intro n key hkey
    have hne : key ≠ "window" := fun heq => hkey (List.mem_singleton.2 heq)
    simp [seeded, SymbolGraph.prop?_seed, hne]
  prop?_hidden := by
    intro n key hkey
    simp [seeded, SymbolGraph.prop?_seed, List.mem_singleton.1 hkey]
  seeded := by
    intro n key t hkey ht
    obtain rfl := List.mem_singleton.1 hkey
    rw [seeded, SymbolGraph.prop?_seed] at ht
    simp only [id, true_and, and_true, String.reduceEq, and_false, if_false] at ht
    split at ht
    · next hn => exact ⟨hn, fun _ => (Option.some.inj ht).symm, fun hne => absurd rfl hne⟩
    · contradiction
  not_wraps_outside := fun {t} ht => absurd ⟨t, rfl⟩ ht
  outside_target := fun t _ _ ht => absurd ⟨t, rfl⟩ ht
  key_visible := by
    intro n key hkey
    rw [seeded, SymbolGraph.key?_seed] at hkey
    contradiction
  root_unnamed := by
    intro _ n key
    rw [seeded, SymbolGraph.prop?_seed]
    simp only [Bool.false_eq_true, false_and, if_false]
    split
    · exact nofun
    · split
      · exact nofun
      · split <;> exact nofun
  root_unflagged := fun _ => SymbolGraph.exported_seed ..
  diagnostics_eq := rfl

theorem Bindings.mirrors_window (commonJs : Bool) :
    Mirrors id ["window"] (seeded commonJs false) (seeded commonJs true) where
  toRenamed := renamed_window commonJs
  inRange := inRange_seeded commonJs false
  outside := fun hhidden => absurd hhidden (List.cons_ne_nil _ _)

/-- The global scope stays where it is, and the other symbols move past `module` and `exports`. -/
def pastCommonJs : SymbolId → SymbolId
  | 0 => root
  | n + 1 => n + 3

theorem pastCommonJs_injective : Function.Injective pastCommonJs := by
  intro m n h
  match m, n with
  | 0, 0 => rfl
  | 0, n + 1 => contradiction
  | m + 1, 0 => contradiction
  | m + 1, n + 1 => exact congrArg Nat.succ (Nat.add_right_cancel h)

theorem not_mem_range_pastCommonJs {t : SymbolId} :
    t ∉ Set.range pastCommonJs ↔ t = 1 ∨ t = 2 := by
  constructor
  · intro ht
    match t with
    | 0 => exact absurd ⟨0, rfl⟩ ht
    | 1 => exact .inl rfl
    | 2 => exact .inr rfl
    | n + 3 => exact absurd ⟨n + 1, rfl⟩ ht
  · rintro ht ⟨n, rfl⟩
    cases n with
    | zero => simp [pastCommonJs, root] at ht
    | succ n => simp [pastCommonJs] at ht

theorem pastCommonJs_eq_root_iff {n : SymbolId} : pastCommonJs n = root ↔ n = root :=
  pastCommonJs_injective.eq_iff' rfl

/-- Seeding `module` and `exports` adds two symbols that only these names lead to. -/
theorem Bindings.renamed_commonJs (window : Bool) :
    Renamed pastCommonJs ["module", "exports"] (seeded false window) (seeded true window) where
  injective := pastCommonJs_injective
  map_root := rfl
  root_lt := by
    rw [seeded, SymbolGraph.size_seed]
    decide
  map_fresh := by
    intro i
    rw [seeded, seeded, SymbolGraph.size_seed, SymbolGraph.size_seed]
    change pastCommonJs (1 + i) = 3 + i
    rw [Nat.add_comm 1 i, Nat.add_comm 3 i]
    rfl
  map_lt := by
    intro n hn
    rw [seeded, SymbolGraph.size_seed] at hn ⊢
    obtain rfl := Nat.lt_one_iff.1 hn
    decide
  face_eq := by
    intro n
    have hne : ¬ (pastCommonJs n = 1 ∨ pastCommonJs n = 2) := fun hn =>
      not_mem_range_pastCommonJs.2 hn ⟨n, rfl⟩
    simp [seeded, SymbolGraph.face_seed, hne]
  prop?_eq := by
    intro n key hkey
    have hmodule : key ≠ "module" := fun heq => hkey (by simp [heq])
    have hexports : key ≠ "exports" := fun heq => hkey (by simp [heq])
    simp only [seeded, SymbolGraph.prop?_seed, hmodule, hexports, and_false, if_false,
      pastCommonJs_eq_root_iff]
    split <;> rfl
  prop?_hidden := by
    intro n key hkey
    have hne : key ≠ "window" := by
      rintro rfl
      simp at hkey
    simp [seeded, SymbolGraph.prop?_seed, hne]
  seeded := by
    intro n key t hkey ht
    have hne : pastCommonJs n ≠ 1 := fun hn => not_mem_range_pastCommonJs.2 (.inl hn) ⟨n, rfl⟩
    rw [seeded, SymbolGraph.prop?_seed] at ht
    simp only [pastCommonJs_eq_root_iff, hne, false_and, and_false, if_false, true_and] at ht
    rw [not_mem_range_pastCommonJs]
    have hnames : key = "module" ∨ key = "exports" := by simpa using hkey
    rcases hnames with rfl | rfl
    · simp only [String.reduceEq, and_false, if_false, and_true] at ht
      split at ht
      · next hn =>
          exact ⟨hn, fun heq => absurd heq (by decide), fun _ => .inl (Option.some.inj ht).symm⟩
      · contradiction
    · simp only [String.reduceEq, and_false, if_false, and_true] at ht
      split at ht
      · next hn =>
          exact ⟨hn, fun heq => absurd heq (by decide), fun _ => .inr (Option.some.inj ht).symm⟩
      · contradiction
  not_wraps_outside := fun _ target => SymbolGraph.wraps_seed _ _ _ target
  outside_target := by
    intro t key u ht hu
    rw [not_mem_range_pastCommonJs] at ht ⊢
    have hroot : t ≠ root := by
      rintro rfl
      simp [root] at ht
    rw [seeded, SymbolGraph.prop?_seed] at hu
    simp only [hroot, false_and, and_false, if_false, true_and] at hu
    split at hu
    · exact .inr (Option.some.inj hu).symm
    · contradiction
  key_visible := by
    intro n key hkey
    rw [seeded, SymbolGraph.key?_seed] at hkey
    contradiction
  root_unnamed := fun h => absurd h (by decide)
  root_unflagged := fun h => absurd h (by decide)
  diagnostics_eq := rfl

theorem Bindings.mirrors_commonJs (window : Bool) :
    Mirrors pastCommonJs ["module", "exports"] (seeded false window) (seeded true window) where
  toRenamed := renamed_commonJs window
  inRange := inRange_seeded false window
  outside := fun hhidden => absurd hhidden (List.cons_ne_nil _ _)

/-! ### Independence -/

/-- The globals that only one of two choices provides. -/
def AnalysisOptions.seededDifferently (o o' : AnalysisOptions) : List String :=
  (if o.commonJs = o'.commonJs then [] else ["module", "exports"]) ++
    if o.window = o'.window then [] else ["window"]

namespace Analysis

theorem sameSurface_window {ast : Ast} (h : ast.Avoids ["window"]) (commonJs : Bool) :
    (Resolver.bindModule { ast } (.seeded commonJs false)).SameSurface
      (Resolver.bindModule { ast } (.seeded commonJs true)) := by
  obtain ⟨ρ, -, hmirrors⟩ := Resolver.bindModule_stays (r := { ast }) rfl h (by decide) (by decide)
    (Bindings.mirrors_window commonJs)
  exact hmirrors.toRenamed.sameSurface (by decide)

theorem sameSurface_commonJs {ast : Ast} (h : ast.Avoids ["module", "exports"]) (window : Bool) :
    (Resolver.bindModule { ast } (.seeded false window)).SameSurface
      (Resolver.bindModule { ast } (.seeded true window)) := by
  obtain ⟨ρ, -, hmirrors⟩ := Resolver.bindModule_stays (r := { ast }) rfl h (by decide) (by decide)
    (Bindings.mirrors_commonJs window)
  exact hmirrors.toRenamed.sameSurface (by decide)

/-- **Unmentioned globals make no difference.**  If a module mentions none of the names that are
seeded differently, two analyses report the same diagnostics in the same order, and agree on every
node under every query. -/
theorem ofAst_sameSurface (ast : Ast) (o o' : AnalysisOptions)
    (h : ast.Avoids (o.seededDifferently o')) :
    (ofAst ast o).SameSurface (ofAst ast o') := by
  have hcommonJs : (Resolver.bindModule { ast } (.seeded o.commonJs o.window)).SameSurface
      (Resolver.bindModule { ast } (.seeded o'.commonJs o.window)) := by
    refine Bindings.SameSurface.of_ne (f := fun c => Resolver.bindModule _ (.seeded c _)) ?_
    intro hne
    exact sameSurface_commonJs (h.mono (by simp [AnalysisOptions.seededDifferently, hne])) o.window
  have hwindow : (Resolver.bindModule { ast } (.seeded o'.commonJs o.window)).SameSurface
      (Resolver.bindModule { ast } (.seeded o'.commonJs o'.window)) := by
    refine Bindings.SameSurface.of_ne (f := fun w => Resolver.bindModule _ (.seeded _ w)) ?_
    intro hne
    exact sameSurface_window (h.mono (by simp [AnalysisOptions.seededDifferently, hne])) o'.commonJs
  exact hcommonJs.trans hwindow

/-- The module `var a = () => {}; export { a, q };`, in which `q` is unknown. -/
def exportsUnknown : Ast where
  nodes := ([.identifier "a", .arrowFunction, .variableDeclaration .var [⟨0, some 1⟩],
    .identifier "a", .exportSpecifier 3, .identifier "q", .exportSpecifier 5,
    .exportNamed none [4, 6], .program [2, 7]].map fun n => ⟨n, ⟨1, 1⟩⟩).toArray
  program := 8

theorem exportsUnknown_sameSurface :
    exportsUnknown.Avoids (({} : AnalysisOptions).seededDifferently ⟨true, false, false⟩) ∧
      (ofAst exportsUnknown {}).diagnostics = #[.unresolvedValue 5 "q"] ∧
      (ofAst exportsUnknown {}).SameSurface (ofAst exportsUnknown ⟨true, false, false⟩) := by
  have havoid :
      exportsUnknown.Avoids (({} : AnalysisOptions).seededDifferently ⟨true, false, false⟩) := by
    unfold Ast.Avoids
    decide
  exact ⟨havoid, by decide +kernel, ofAst_sameSurface exportsUnknown {} _ havoid⟩

end Analysis

end ExportSurface

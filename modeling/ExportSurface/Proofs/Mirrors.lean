/-
States that mirror each other.

One state mirrors another if it has the same symbols under other positions (`Bindings.Renamed`) and
besides them only what cannot be got hold of: globals whose names are hidden or, if no names are
hidden, literals that no property leads to.

Such a literal is made where one run resolves a key that the other reads off the tree.  So it cannot
be known beforehand which symbol a renaming will lead to, and the renaming is carried along instead:
it stays as it is on the symbols that exist (`Bindings.Prolongs`), and is shifted by one beyond them
each time the second state gets a literal of its own.

Main definitions:

* `Bindings.Mirrors` — the relation;
* `Bindings.Prolongs` — a renaming goes on from a state to a later one;
* `Bindings.Stays`, `Bindings.Reflects` — two runs end in mirrored states, and find corresponding
  symbols.

Main results:

* `Bindings.Mirrors.alloc`, `Bindings.Mirrors.setProp`, `Bindings.Mirrors.markExported` — what the
  same change on both sides keeps;
* `Bindings.Mirrors.skip` — **a literal that only the second state gets**;
* `Bindings.Mirrors.sameSurface` — mirrored states give the same answers.
-/

import ExportSurface.Proofs.Renaming

set_option autoImplicit false

namespace ExportSurface

open SymbolGraph (root)

namespace Bindings

/-! ### The relation -/

/-- A symbol that can be found: one of the graph, and not the global scope as long as `window` is
hidden. -/
def Finds (hidden : List String) (b : Bindings) (s : SymbolId) : Prop :=
  s < b.graph.size ∧ ("window" ∈ hidden → s ≠ root)

theorem Finds.mono {hidden : List String} {b c : Bindings} {s : SymbolId} (h : b.Finds hidden s)
    (hsize : b.graph.size ≤ c.graph.size) : c.Finds hidden s :=
  ⟨Nat.lt_of_lt_of_le h.1 hsize, h.2⟩

/-- The renaming maps the symbols of the first state to those of the second, and if no names are
hidden, then the second has nothing besides but literals without properties. -/
structure Mirrors (ρ : SymbolId → SymbolId) (hidden : List String) (b b' : Bindings) : Prop
    extends Renamed ρ hidden b b' where
  inRange : b.graph.InRange
  outside : hidden = [] → ∀ t, t ∉ Set.range ρ →
    (b'.graph.get t).kind = .literal ∧ ∀ key, b'.graph.prop? t key = none

/-- The renaming `ρ'` of the later state is `ρ` on the symbols of the earlier one. -/
structure Prolongs (ρ ρ' : SymbolId → SymbolId) (b c : Bindings) : Prop where
  size_le : b.graph.size ≤ c.graph.size
  map_eq : ∀ n < b.graph.size, ρ' n = ρ n

namespace Prolongs

variable {ρ ρ₁ ρ' : SymbolId → SymbolId} {b c e : Bindings}

theorem refl : Prolongs ρ ρ b b := ⟨Nat.le_refl _, fun _ _ => rfl⟩

theorem trans (h : Prolongs ρ ρ₁ b c) (h' : Prolongs ρ₁ ρ' c e) : Prolongs ρ ρ' b e := by
  refine ⟨Nat.le_trans h.size_le h'.size_le, ?_⟩
  intro n hn
  rw [h'.map_eq n (Nat.lt_of_lt_of_le hn h.size_le), h.map_eq n hn]

theorem alloc (h : Prolongs ρ ρ' b c) (s : Symbol) : Prolongs ρ ρ' b (c.alloc s).2 := by
  refine ⟨?_, h.map_eq⟩
  rw [alloc_graph, SymbolGraph.size_alloc]
  exact Nat.le_succ_of_le h.size_le

theorem setProp (h : Prolongs ρ ρ' b c) (id : SymbolId) (key : String) (t : SymbolId) :
    Prolongs ρ ρ' b (c.setProp id key t) := by
  refine ⟨?_, h.map_eq⟩
  rw [setProp_graph, SymbolGraph.size_setProp]
  exact h.size_le

theorem markExported (h : Prolongs ρ ρ' b c) (id : SymbolId) :
    Prolongs ρ ρ' b (c.markExported id) := by
  refine ⟨?_, h.map_eq⟩
  rw [markExported_graph, SymbolGraph.size_markExported]
  exact h.size_le

theorem report (h : Prolongs ρ ρ' b c) (d : Diagnostic) : Prolongs ρ ρ' b (c.report d) :=
  ⟨h.size_le, h.map_eq⟩

/-- A symbol that was found keeps its image. -/
theorem map_found (h : Prolongs ρ ρ' b c) {hidden : List String} {found : Option SymbolId}
    (hfound : ∀ s, found = some s → b.Finds hidden s) : found.map ρ' = found.map ρ := by
  cases found with
  | none => rfl
  | some s => rw [Option.map_some, Option.map_some, h.map_eq s (hfound s rfl).1]

end Prolongs

namespace Mirrors

variable {ρ ρ' : SymbolId → SymbolId} {hidden : List String} {b b' c c' : Bindings}

/-- If the renaming leaves out no symbol, then nothing is to be said about other symbols. -/
theorem of_bijective (hbijective : Function.Bijective ρ) (hmap : ρ root = root)
    (hroot : root < b.graph.size) (hfresh : ∀ i, ρ (b.graph.size + i) = b'.graph.size + i)
    (hlt : ∀ n < b.graph.size, ρ n < b'.graph.size)
    (hface : ∀ n, (b'.graph.get (ρ n)).face = (b.graph.get n).face)
    (hprop : ∀ n key, b'.graph.prop? (ρ n) key = (b.graph.prop? n key).map ρ)
    (hdiagnostics : b'.diagnostics = b.diagnostics) (hrange : b.graph.InRange) :
    Mirrors ρ [] b b' where
  injective := hbijective.injective
  map_root := hmap
  root_lt := hroot
  map_fresh := hfresh
  map_lt := hlt
  face_eq := hface
  prop?_eq := fun n key _ => hprop n key
  prop?_hidden := fun _ _ h => absurd h List.not_mem_nil
  seeded := fun _ _ _ h => absurd h List.not_mem_nil
  not_wraps_outside := fun {t} ht => absurd (hbijective.surjective t) ht
  outside_target := fun t _ _ ht => absurd (hbijective.surjective t) ht
  key_visible := fun _ _ _ => List.not_mem_nil
  root_unnamed := fun h => absurd h List.not_mem_nil
  root_unflagged := fun h => absurd h List.not_mem_nil
  diagnostics_eq := hdiagnostics
  inRange := hrange
  outside := fun _ t ht => absurd (hbijective.surjective t) ht

/-- Every state mirrors itself. -/
theorem refl (hroot : root < b.graph.size) (hrange : b.graph.InRange) : Mirrors id [] b b := by
  refine of_bijective Function.bijective_id rfl hroot (fun _ => rfl) (fun _ hn => hn)
    (fun _ => rfl) ?_ rfl hrange
  intro n key
  rw [Option.map_id]
  rfl

theorem finds_of_prop? (h : Mirrors ρ hidden b b') {n s : SymbolId} {key : String}
    (hs : b.graph.prop? n key = some s) : b.Finds hidden s :=
  ⟨h.inRange.lt_size hs, fun hwindow heq => h.root_unnamed hwindow n key (heq ▸ hs)⟩

/-! ### One change on both sides -/

theorem report (h : Mirrors ρ hidden b b') (d : Diagnostic) :
    Mirrors ρ hidden (b.report d) (b'.report d) :=
  { h with toRenamed := h.toRenamed.report d }

theorem alloc (h : Mirrors ρ hidden b b') {s : Symbol} (hprops : s.props = .empty)
    (hkey : ∀ key, s.key? = some key → key ∉ hidden) :
    Mirrors ρ hidden (b.alloc s).2 (b'.alloc s).2 where
  toRenamed := h.toRenamed.alloc hprops hkey
  inRange := h.inRange.alloc hprops
  outside := by
    intro hhidden t ht
    have hne : t ≠ b'.graph.size := by
      rintro rfl
      exact ht ⟨_, h.map_size⟩
    obtain ⟨hkind, hprop⟩ := h.outside hhidden t ht
    refine ⟨?_, fun key => ?_⟩
    · rwa [alloc_graph, SymbolGraph.get_alloc, if_neg hne]
    · rw [alloc_graph, SymbolGraph.prop?_alloc _ hprops, hprop]

theorem setProp (h : Mirrors ρ hidden b b') {id t : SymbolId} {key : String} (hkey : key ∉ hidden)
    (ht : b.Finds hidden t) :
    Mirrors ρ hidden (b.setProp id key t) (b'.setProp (ρ id) key (ρ t)) where
  toRenamed := h.toRenamed.setProp hkey ht.2
  inRange := h.inRange.setProp ht.1
  outside := by
    intro hhidden u hu
    have hne : u ≠ ρ id := fun heq => hu ⟨id, heq.symm⟩
    obtain ⟨hkind, hprop⟩ := h.outside hhidden u hu
    refine ⟨?_, fun k => ?_⟩
    · rwa [setProp_graph, SymbolGraph.kind_setProp]
    · rw [setProp_graph, SymbolGraph.prop?_setProp, if_neg fun hboth => hne hboth.1.1, hprop]

/-- A global is set to corresponding symbols. -/
theorem setGlobal (h : Mirrors ρ hidden b b') {t : SymbolId} {key : String} (hkey : key ∉ hidden)
    (ht : b.Finds hidden t) :
    Mirrors ρ hidden (b.setProp root key t) (b'.setProp root key (ρ t)) := by
  have hset : Mirrors ρ hidden (b.setProp root key t) (b'.setProp (ρ root) key (ρ t)) :=
    h.setProp hkey ht
  rwa [h.map_root] at hset

/-- A property is set on the second side only, to what it is there already. -/
theorem setProp_same (h : Mirrors ρ hidden b b') {id t : SymbolId} {key : String}
    (hsame : b'.graph.prop? id key = some t) : Mirrors ρ hidden b (b'.setProp id key t) where
  toRenamed := h.toRenamed.setProp_same hsame
  inRange := h.inRange
  outside := by
    intro hhidden u hu
    obtain ⟨hkind, hprop⟩ := h.outside hhidden u hu
    refine ⟨?_, fun k => ?_⟩
    · rwa [setProp_graph, SymbolGraph.kind_setProp]
    · rw [setProp_graph, SymbolGraph.prop?_setProp, if_neg, hprop]
      rintro ⟨⟨rfl, -⟩, rfl⟩
      rw [hprop] at hsame
      contradiction

theorem markExported (h : Mirrors ρ hidden b b') {id : SymbolId} (hid : b.Finds hidden id) :
    Mirrors ρ hidden (b.markExported id) (b'.markExported (ρ id)) where
  toRenamed := h.toRenamed.markExported hid.2
  inRange := h.inRange.markExported id
  outside := by
    intro hhidden u hu
    obtain ⟨hkind, hprop⟩ := h.outside hhidden u hu
    refine ⟨?_, fun k => ?_⟩
    · rwa [markExported_graph, SymbolGraph.kind_markExported]
    · rw [markExported_graph, SymbolGraph.prop?_markExported, hprop]

/-! ### A literal on the second side only -/

/-- The renaming, moved by one from a position on. -/
def shiftFrom (ρ : SymbolId → SymbolId) (size : Nat) (n : SymbolId) : SymbolId :=
  if n < size then ρ n else ρ n + 1

theorem shiftFrom_of_lt (h : Mirrors ρ hidden b b') {n : SymbolId} (hn : n < b.graph.size) :
    shiftFrom ρ b.graph.size n = ρ n ∧ shiftFrom ρ b.graph.size n < b'.graph.size := by
  rw [shiftFrom, if_pos hn]
  exact ⟨rfl, h.map_lt n hn⟩

theorem shiftFrom_add (h : Mirrors ρ hidden b b') (i : Nat) :
    shiftFrom ρ b.graph.size (b.graph.size + i) = b'.graph.size + 1 + i := by
  rw [shiftFrom, if_neg (Nat.not_lt.2 (Nat.le_add_right _ i)), h.map_fresh]
  exact Nat.add_right_comm _ _ _

theorem shiftFrom_injective (h : Mirrors ρ hidden b b') :
    Function.Injective (shiftFrom ρ b.graph.size) := by
  intro m n hmn
  rcases Nat.lt_or_ge m b.graph.size with hm | hm <;>
    rcases Nat.lt_or_ge n b.graph.size with hn | hn
  · rw [(h.shiftFrom_of_lt hm).1, (h.shiftFrom_of_lt hn).1] at hmn
    exact h.injective hmn
  · have hlt := (h.shiftFrom_of_lt hm).2
    obtain ⟨j, rfl⟩ := Nat.exists_eq_add_of_le hn
    rw [hmn, h.shiftFrom_add] at hlt
    exact absurd hlt (Nat.not_lt.2 (by omega))
  · have hlt := (h.shiftFrom_of_lt hn).2
    obtain ⟨i, rfl⟩ := Nat.exists_eq_add_of_le hm
    rw [← hmn, h.shiftFrom_add] at hlt
    exact absurd hlt (Nat.not_lt.2 (by omega))
  · obtain ⟨i, rfl⟩ := Nat.exists_eq_add_of_le hm
    obtain ⟨j, rfl⟩ := Nat.exists_eq_add_of_le hn
    rw [h.shiftFrom_add, h.shiftFrom_add] at hmn
    rw [Nat.add_left_cancel hmn]

/-- What the shifted renaming leaves out, the renaming left out before, or it is the new symbol. -/
theorem not_mem_range_shiftFrom (h : Mirrors ρ hidden b b') {t : SymbolId}
    (ht : t ∉ Set.range (shiftFrom ρ b.graph.size)) :
    t = b'.graph.size ∨ t ∉ Set.range ρ := by
  rcases Nat.lt_trichotomy t b'.graph.size with hlt | heq | hgt
  · right
    rintro ⟨n, rfl⟩
    have hn : n < b.graph.size := h.map_lt_iff.1 hlt
    exact ht ⟨n, (h.shiftFrom_of_lt hn).1⟩
  · exact .inl heq
  · obtain ⟨i, rfl⟩ := Nat.exists_eq_add_of_le hgt
    exact absurd ⟨_, h.shiftFrom_add i⟩ ht

/-- **A literal that only the second state gets.**  The renaming goes on past it. -/
theorem skip (h : Mirrors ρ [] b b') {s : Symbol} (hkind : s.kind = .literal)
    (hprops : s.props = .empty) :
    Prolongs ρ (shiftFrom ρ b.graph.size) b b ∧
      Mirrors (shiftFrom ρ b.graph.size) [] b (b'.alloc s).2 := by
  have hsize : (b'.alloc s).2.graph.size = b'.graph.size + 1 := by simp
  -- Beyond the symbols of the first state there is nothing on either side.
  have hbeyond : ∀ i, (b'.alloc s).2.graph.get (b'.graph.size + 1 + i) = .placeholder := by
    intro i
    exact SymbolGraph.get_of_size_le (by omega)
  have hold : ∀ n < b.graph.size,
      (b'.alloc s).2.graph.get (shiftFrom ρ b.graph.size n) = b'.graph.get (ρ n) := by
    intro n hn
    obtain ⟨heq, hlt⟩ := h.shiftFrom_of_lt hn
    rw [alloc_graph, SymbolGraph.get_alloc, if_neg (Nat.ne_of_lt hlt), heq]
  have hprop : ∀ t key, (b'.alloc s).2.graph.prop? t key = b'.graph.prop? t key := by
    intro t key
    rw [alloc_graph, SymbolGraph.prop?_alloc _ hprops]
  have houtside : ∀ t, t ∉ Set.range (shiftFrom ρ b.graph.size) →
      ((b'.alloc s).2.graph.get t).kind = .literal ∧
        ∀ key, (b'.alloc s).2.graph.prop? t key = none := by
    intro t ht
    rcases h.not_mem_range_shiftFrom ht with rfl | hout
    · refine ⟨?_, ?_⟩
      · rw [alloc_graph, SymbolGraph.get_alloc, if_pos rfl, hkind]
      · intro key
        rw [hprop]
        exact SymbolGraph.prop?_of_size_le (Nat.le_refl _) key
    · have hne : t ≠ b'.graph.size := by
        rintro rfl
        exact hout ⟨_, h.map_size⟩
      refine ⟨?_, fun key => (hprop t key).trans ((h.outside rfl t hout).2 key)⟩
      rw [alloc_graph, SymbolGraph.get_alloc, if_neg hne]
      exact (h.outside rfl t hout).1
  refine ⟨⟨Nat.le_refl _, fun n hn => (h.shiftFrom_of_lt hn).1⟩, ?_⟩
  exact
    { injective := h.shiftFrom_injective
      map_root := (h.shiftFrom_of_lt h.root_lt).1.trans h.map_root
      root_lt := h.root_lt
      map_fresh := fun i => by rw [hsize, h.shiftFrom_add]
      map_lt := fun n hn => by
        rw [hsize]
        exact Nat.lt_succ_of_lt (h.shiftFrom_of_lt hn).2
      face_eq := by
        intro n
        rcases Nat.lt_or_ge n b.graph.size with hn | hn
        · rw [hold n hn, h.face_eq]
        · obtain ⟨i, rfl⟩ := Nat.exists_eq_add_of_le hn
          rw [h.shiftFrom_add, hbeyond, SymbolGraph.get_of_size_le hn]
      prop?_eq := by
        intro n key hkey
        rcases Nat.lt_or_ge n b.graph.size with hn | hn
        · rw [hprop, (h.shiftFrom_of_lt hn).1, h.prop?_eq n key hkey]
          cases hfound : b.graph.prop? n key with
          | none => rfl
          | some t =>
              rw [Option.map_some, Option.map_some,
                (h.shiftFrom_of_lt (h.inRange.lt_size hfound)).1]
        · obtain ⟨i, rfl⟩ := Nat.exists_eq_add_of_le hn
          rw [h.shiftFrom_add, SymbolGraph.prop?_of_size_le (by omega),
            SymbolGraph.prop?_of_size_le hn]
          rfl
      prop?_hidden := h.prop?_hidden
      seeded := fun _ _ _ hkey => absurd hkey List.not_mem_nil
      not_wraps_outside := fun {t} ht target => by
        rw [Symbol.wraps, (houtside t ht).1]
        rfl
      outside_target := fun t key u ht hu => by
        rw [(houtside t ht).2 key] at hu
        contradiction
      key_visible := h.key_visible
      root_unnamed := h.root_unnamed
      root_unflagged := h.root_unflagged
      diagnostics_eq := h.diagnostics_eq
      inRange := h.inRange
      outside := fun _ => houtside }

end Mirrors

/-! ### Outcomes -/

/-- The states are mirrored, under a renaming that goes on from an earlier state. -/
def Stays (ρ : SymbolId → SymbolId) (hidden : List String) (b c c' : Bindings) : Prop :=
  ∃ ρ', Prolongs ρ ρ' b c ∧ Mirrors ρ' hidden c c'

/-- Two outcomes from mirrored states: corresponding symbols of the first graph, and mirrored
states. -/
def Reflects (ρ : SymbolId → SymbolId) (hidden : List String) (b : Bindings)
    (out out' : Option SymbolId × Bindings) : Prop :=
  ∃ ρ', Prolongs ρ ρ' b out.2 ∧ out'.1 = out.1.map ρ' ∧
    (∀ s, out.1 = some s → out.2.Finds hidden s) ∧ Mirrors ρ' hidden out.2 out'.2

section outcomes

variable {ρ ρ' : SymbolId → SymbolId} {hidden : List String} {b b' c c' : Bindings}

theorem Reflects.ends {out out' : Option SymbolId × Bindings} (h : Reflects ρ hidden b out out') :
    ∃ ρ' s c c', out = (s, c) ∧ out' = (s.map ρ', c') ∧ Prolongs ρ ρ' b c ∧
      (∀ t, s = some t → c.Finds hidden t) ∧ Mirrors ρ' hidden c c' := by
  obtain ⟨ρ', hlong, hfound, hfinds, hc⟩ := h
  exact ⟨ρ', out.1, out.2, out'.2, rfl, hfound ▸ rfl, hlong, hfinds, hc⟩

theorem Reflects.stays {out out' : Option SymbolId × Bindings} (h : Reflects ρ hidden b out out') :
    Stays ρ hidden b out.2 out'.2 := by
  obtain ⟨ρ', hlong, -, -, hc⟩ := h
  exact ⟨ρ', hlong, hc⟩

theorem Mirrors.stays (h : Mirrors ρ hidden b b') : Stays ρ hidden b b b' := ⟨ρ, .refl, h⟩

theorem Mirrors.nothing (h : Mirrors ρ' hidden c c') (hlong : Prolongs ρ ρ' b c) :
    Reflects ρ hidden b (none, c) (none, c') :=
  ⟨ρ', hlong, rfl, fun _ hs => absurd hs (Option.some_ne_none _).symm, h⟩

theorem Mirrors.found (h : Mirrors ρ' hidden c c') (hlong : Prolongs ρ ρ' b c) {s : SymbolId}
    (hs : c.Finds hidden s) : Reflects ρ hidden b (some s, c) (some (ρ' s), c') :=
  ⟨ρ', hlong, rfl, fun _ ht => Option.some.inj ht ▸ hs, h⟩

/-- A property is set to a symbol, which is the answer. -/
theorem Mirrors.stored (h : Mirrors ρ' hidden c c') (hlong : Prolongs ρ ρ' b c) {s : SymbolId}
    (hs : c.Finds hidden s) (owner : SymbolId) {key : String} (hkey : key ∉ hidden) :
    Reflects ρ hidden b (some s, c.setProp owner key s)
      (some (ρ' s), c'.setProp (ρ' owner) key (ρ' s)) :=
  (h.setProp hkey hs).found (hlong.setProp owner key s) (hs.mono (by simp))

theorem Mirrors.stored_root (h : Mirrors ρ' hidden c c') (hlong : Prolongs ρ ρ' b c) {s : SymbolId}
    (hs : c.Finds hidden s) {name : String} (hname : name ∉ hidden) :
    Reflects ρ hidden b (some s, c.setProp root name s)
      (some (ρ' s), c'.setProp root name (ρ' s)) := by
  have hstored := h.stored hlong hs root hname
  rwa [h.map_root] at hstored

theorem Mirrors.alloc_ends (h : Mirrors ρ hidden b b') (new : Symbol) (hprops : new.props = .empty)
    (hkey : ∀ key, new.key? = some key → key ∉ hidden) :
    ∃ s c c', b.alloc new = (s, c) ∧ b'.alloc new = (ρ s, c') ∧ c.Finds hidden s ∧
      Prolongs ρ ρ b c ∧ Mirrors ρ hidden c c' :=
  ⟨b.graph.size, (b.alloc new).2, (b'.alloc new).2, rfl, h.map_size ▸ rfl,
    ⟨lt_of_alloc rfl, fun _ => Nat.ne_of_gt h.root_lt⟩, Prolongs.refl.alloc new,
    h.alloc hprops hkey⟩

/-- A symbol that yields no key. -/
theorem Mirrors.alloc_plain_ends (h : Mirrors ρ hidden b b') (new : Symbol)
    (hprops : new.props = .empty) (hkey : new.key? = none) :
    ∃ s c c', b.alloc new = (s, c) ∧ b'.alloc new = (ρ s, c') ∧ c.Finds hidden s ∧
      Prolongs ρ ρ b c ∧ Mirrors ρ hidden c c' :=
  h.alloc_ends new hprops fun key hsome => by
    rw [hkey] at hsome
    contradiction

/-- Flagging corresponding symbols leaves the renaming as it is. -/
theorem Mirrors.markAll (h : Mirrors ρ' hidden c c') (hlong : Prolongs ρ ρ' b c)
    {symbols : List SymbolId} (hsymbols : ∀ s ∈ symbols, c.Finds hidden s) :
    Stays ρ hidden b (symbols.foldl Bindings.markExported c)
      ((symbols.map ρ').foldl Bindings.markExported c') := by
  induction symbols generalizing c c' with
  | nil => exact ⟨ρ', hlong, h⟩
  | cons s symbols ih =>
      obtain ⟨hs, hrest⟩ := List.forall_mem_cons.1 hsymbols
      exact ih (h.markExported hs) (hlong.markExported s) fun t ht => (hrest t ht).mono (by simp)

theorem Stays.trans {e e' : Bindings} (h : Stays ρ hidden b c c')
    (hnext : ∀ ρ', Mirrors ρ' hidden c c' → Stays ρ' hidden c e e') : Stays ρ hidden b e e' := by
  obtain ⟨ρ₁, hlong, hc⟩ := h
  obtain ⟨ρ₂, hlong₂, he⟩ := hnext ρ₁ hc
  exact ⟨ρ₂, hlong.trans hlong₂, he⟩

/-- A symbol that was there before is the answer. -/
theorem Stays.found {e e' : Bindings} (h : Stays ρ' hidden c e e') (hlong : Prolongs ρ ρ' b c)
    {s : SymbolId} (hs : c.Finds hidden s) :
    Reflects ρ hidden b (some s, e) (some (ρ' s), e') := by
  obtain ⟨ρ₂, hlong₂, he⟩ := h
  rw [← hlong₂.map_eq s hs.1]
  exact he.found (hlong.trans hlong₂) (hs.mono hlong₂.size_le)

theorem Stays.foldl {α : Type} {f f' : Bindings → α → Bindings} {l : List α}
    (hf : ∀ a ∈ l, ∀ ρ₁ e e', Prolongs ρ ρ₁ b e → Mirrors ρ₁ hidden e e' →
      Stays ρ₁ hidden e (f e a) (f' e' a)) (h : Stays ρ hidden b c c') :
    Stays ρ hidden b (l.foldl f c) (l.foldl f' c') := by
  induction l generalizing c c' with
  | nil => exact h
  | cons a l ih =>
      obtain ⟨ρ₁, hlong, hc⟩ := h
      obtain ⟨ρ₂, hlong₂, he⟩ := hf a (List.mem_cons_self ..) ρ₁ c c' hlong hc
      exact ih (fun x hx => hf x (List.mem_cons_of_mem a hx)) ⟨ρ₂, hlong.trans hlong₂, he⟩

end outcomes

theorem Mirrors.sameSurface {ρ : SymbolId → SymbolId} {b b' : Bindings} (h : Mirrors ρ [] b b') :
    SameSurface b b' :=
  h.toRenamed.sameSurface fun _ => List.not_mem_nil

end Bindings

end ExportSurface

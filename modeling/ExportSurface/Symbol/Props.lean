/-
The properties of a symbol: names that point at other symbols.

Each name occurs once.  Setting a name that is present redirects it, and any other name is added;
nothing is ever removed.

Main definitions:

* `Props` — a finite map from names to symbols;
* `Props.get?`, `Props.insert`, `Props.targets`, `Props.size`.

Main results:

* `Props.get?_insert` — setting a name changes that name only;
* `Props.mem_targets_iff` — the targets are the symbols that some name points at.
-/

set_option autoImplicit false

namespace ExportSurface

/-- The position of a symbol in its graph. -/
abbrev SymbolId := Nat

/-- A finite map from names to symbols. -/
structure Props where
  entries : List (String × SymbolId)
  /-- No name occurs twice. -/
  nodup : (entries.map Prod.fst).Nodup
  deriving DecidableEq

namespace Props

/-- The target of a name in a list of entries. -/
def targetIn? (key : String) : List (String × SymbolId) → Option SymbolId
  | [] => none
  | (k, t) :: rest => if k = key then some t else targetIn? key rest

/-- Point a name at a target in a list of entries. -/
def setEntry (key : String) (target : SymbolId) :
    List (String × SymbolId) → List (String × SymbolId)
  | [] => [(key, target)]
  | (k, t) :: rest => if k = key then (k, target) :: rest else (k, t) :: setEntry key target rest

theorem mem_keys_setEntry {key k : String} {target : SymbolId} {l : List (String × SymbolId)} :
    k ∈ (setEntry key target l).map Prod.fst ↔ k = key ∨ k ∈ l.map Prod.fst := by
  induction l with
  | nil => simp [setEntry]
  | cons e rest ih =>
      obtain ⟨k', t⟩ := e
      by_cases h : k' = key
      · subst h
        simp [setEntry]
      · simp only [setEntry, h, if_false, List.map_cons, List.mem_cons, ih]
        constructor
        · rintro (h₁ | h₁ | h₁) <;> simp [h₁]
        · rintro (h₁ | h₁ | h₁) <;> simp [h₁]

theorem nodup_setEntry {key : String} {target : SymbolId} {l : List (String × SymbolId)}
    (h : (l.map Prod.fst).Nodup) : ((setEntry key target l).map Prod.fst).Nodup := by
  induction l with
  | nil => simp [setEntry]
  | cons e rest ih =>
      obtain ⟨k', t⟩ := e
      simp only [List.map_cons, List.nodup_cons] at h
      by_cases hk : k' = key
      · subst hk
        simp [setEntry, h.1, h.2]
      · simp only [setEntry, hk, if_false, List.map_cons, List.nodup_cons, ih h.2, and_true]
        intro hmem
        rcases mem_keys_setEntry.1 hmem with h₁ | h₁
        · exact hk h₁
        · exact h.1 h₁

def empty : Props := ⟨[], by simp⟩

/-- The symbol that a name points at. -/
def get? (p : Props) (key : String) : Option SymbolId := targetIn? key p.entries

/-- Point a name at a symbol, redirecting it if it is present. -/
def insert (p : Props) (key : String) (target : SymbolId) : Props :=
  ⟨setEntry key target p.entries, nodup_setEntry p.nodup⟩

/-- The symbols that the names point at, one for each name. -/
def targets (p : Props) : List SymbolId := p.entries.map Prod.snd

def size (p : Props) : Nat := p.entries.length

/-! ### Laws -/

@[simp] theorem get?_empty (key : String) : empty.get? key = none := rfl

theorem targetIn?_setEntry (key k : String) (target : SymbolId) (l : List (String × SymbolId)) :
    targetIn? k (setEntry key target l) = if k = key then some target else targetIn? k l := by
  induction l with
  | nil => simp [setEntry, targetIn?, eq_comm]
  | cons e rest ih =>
      obtain ⟨k', t⟩ := e
      by_cases h : k' = key
      · subst h
        by_cases hk : k = k' <;> simp [setEntry, targetIn?, hk, eq_comm]
      · by_cases hk : k = k'
        · subst hk
          simp [setEntry, h, targetIn?]
        · simp [setEntry, h, targetIn?, Ne.symm hk, ih]

/-- **Setting a name changes that name only.** -/
theorem get?_insert (p : Props) (key k : String) (target : SymbolId) :
    (p.insert key target).get? k = if k = key then some target else p.get? k :=
  targetIn?_setEntry key k target p.entries

theorem targetIn?_eq_some_iff {l : List (String × SymbolId)} (h : (l.map Prod.fst).Nodup)
    {k : String} {t : SymbolId} : targetIn? k l = some t ↔ (k, t) ∈ l := by
  induction l with
  | nil => simp [targetIn?]
  | cons e rest ih =>
      obtain ⟨k', t'⟩ := e
      simp only [List.map_cons, List.nodup_cons] at h
      by_cases hk : k' = k
      · subst hk
        simp only [targetIn?, if_true, List.mem_cons, Prod.mk.injEq, true_and]
        constructor
        · intro ht
          exact .inl (by simpa using ht.symm)
        · rintro (ht | ht)
          · simp [ht]
          · exact absurd (List.mem_map.2 ⟨(k', t), ht, rfl⟩) h.1
      · simp [targetIn?, hk, Ne.symm hk, ih h.2]

/-- The targets are the symbols that some name points at. -/
theorem mem_targets_iff {p : Props} {t : SymbolId} : t ∈ p.targets ↔ ∃ k, p.get? k = some t := by
  simp only [targets, List.mem_map, get?, targetIn?_eq_some_iff p.nodup]
  constructor
  · rintro ⟨⟨k, t'⟩, hmem, rfl⟩
    exact ⟨k, hmem⟩
  · rintro ⟨k, hmem⟩
    exact ⟨(k, t), hmem, rfl⟩

end Props

end ExportSurface

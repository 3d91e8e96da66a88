/-
Files below excluded directories.

The built-in patterns and the configured ones come after those of the ignore files, so about a
single path they have the last word.  A path is looked up from the inside out, though: itself first,
and then the directories around it, up to the first that any pattern matches.  A negated pattern of
an ignore file can therefore take a file back in below a directory that is left out.  There is no
other way: unless such a pattern decides about the file, or about a directory on the way to it, the
file stays out.  All of this supposes that the patterns compile; if they do not, nothing is left out
at all.

Main definitions:

* `IgnoreRules.Matches`, `IgnoreRules.LastMatch` — some rule matches a path, and the last one does;
* `IgnoreRules.ofFiles`, `IgnoreRules.own` — the rules of a project's files, and its other rules;
* `IgnoreRules.TakesBack`, `IgnoreRules.TakesBackFirst` — the files take a place back in, and the
  first of some places that any rule matches.

Main results:

* `IgnoreRules.verdict_append` — **later rules have the last word**;
* `IgnoreRules.firstDecided_eq_kept_iff` — the first place about which something is said;
* `IgnoreRules.verdict_given_eq_kept_iff` — only the files take a place back in;
* `IgnoreRules.ignores_below_excluded_iff` — **a file below an excluded directory is left out unless
  the files take it, or a directory on the way to it, back in**, or the rules do not compile;
* `IgnoreRules.keptDependency_not_ignored` — they can.
-/

import ExportSurface.Ignore.Rules

set_option autoImplicit false

namespace ExportSurface

namespace IgnoreRules

variable {rules rules' : IgnoreRules} {path : List Char} {isDirectory : Bool}

/-! ### The last rule that matches -/

/-- Some rule matches the path. -/
def Matches (rules : IgnoreRules) (path : List Char) (isDirectory : Bool) : Prop :=
  ∃ r ∈ rules, r.matches (String.ofList path).toUTF8.toList isDirectory = true

instance (rules : IgnoreRules) (path : List Char) (isDirectory : Bool) :
    Decidable (rules.Matches path isDirectory) :=
  inferInstanceAs (Decidable (∃ r ∈ rules, _))

/-- The rule matches the path, and no rule after it does. -/
def LastMatch (rules : IgnoreRules) (path : List Char) (isDirectory : Bool) (rule : IgnoreRule) :
    Prop :=
  ∃ before after, rules = before ++ rule :: after ∧
    rule.matches (String.ofList path).toUTF8.toList isDirectory = true ∧
    ¬ Matches after path isDirectory

/-- The last rule that matches the path. -/
def lastMatch? (rules : IgnoreRules) (path : List Char) (isDirectory : Bool) : Option IgnoreRule :=
  rules.reverse.find? (·.matches (String.ofList path).toUTF8.toList isDirectory)

theorem lastMatch?_eq_none_iff :
    rules.lastMatch? path isDirectory = none ↔ ¬ rules.Matches path isDirectory := by
  simp [lastMatch?, Matches]

theorem lastMatch?_eq_some_iff {rule : IgnoreRule} :
    rules.lastMatch? path isDirectory = some rule ↔ rules.LastMatch path isDirectory rule := by
  rw [lastMatch?, List.find?_eq_some_iff_append]
  constructor
  · rintro ⟨hmatches, after, before, hsplit, hafter⟩
    refine ⟨before.reverse, after.reverse, ?_, hmatches, ?_⟩
    · simpa using congrArg List.reverse hsplit
    · rintro ⟨r, hr, hrmatches⟩
      have hfails := hafter r (List.mem_reverse.1 hr)
      rw [hrmatches] at hfails
      cases hfails
  · rintro ⟨before, after, rfl, hmatches, hafter⟩
    refine ⟨hmatches, after.reverse, before.reverse, by simp, ?_⟩
    intro r hr
    rw [Bool.not_eq_true']
    exact Bool.eq_false_iff.2 fun hrmatches => hafter ⟨r, List.mem_reverse.1 hr, hrmatches⟩

theorem verdict_eq (rules : IgnoreRules) (path : List Char) (isDirectory : Bool) :
    rules.verdict path isDirectory = match rules.lastMatch? path isDirectory with
      | some rule => if rule.negated then .kept else .ignored
      | none => .undecided :=
  rfl

theorem verdict_eq_undecided_iff :
    rules.verdict path isDirectory = .undecided ↔ ¬ rules.Matches path isDirectory := by
  rw [verdict_eq, ← lastMatch?_eq_none_iff]
  cases rules.lastMatch? path isDirectory with
  | none => simp
  | some rule => cases hnegated : rule.negated <;> simp [hnegated]

theorem verdict_eq_kept_iff : rules.verdict path isDirectory = .kept ↔
    ∃ rule, rules.LastMatch path isDirectory rule ∧ rule.negated = true := by
  simp only [verdict_eq, ← lastMatch?_eq_some_iff]
  cases rules.lastMatch? path isDirectory with
  | none => simp
  | some rule => cases hnegated : rule.negated <;> simp [hnegated]

/-- **Later rules have the last word.** -/
theorem verdict_append : (rules ++ rules').verdict path isDirectory =
    if rules'.verdict path isDirectory = .undecided then rules.verdict path isDirectory
    else rules'.verdict path isDirectory := by
  have hlast : lastMatch? (rules ++ rules') path isDirectory =
      (rules'.lastMatch? path isDirectory).or (rules.lastMatch? path isDirectory) := by
    rw [lastMatch?, List.reverse_append, List.find?_append]
    rfl
  rw [verdict_eq, verdict_eq rules', hlast]
  cases rules'.lastMatch? path isDirectory with
  | none => simp [verdict_eq]
  | some rule => cases hnegated : rule.negated <;> simp [hnegated]

/-- Rules that take nothing back in leave out what they match. -/
theorem verdict_of_not_negated (h : ∀ r ∈ rules, r.negated = false)
    (hmatches : rules.Matches path isDirectory) : rules.verdict path isDirectory = .ignored := by
  rw [verdict_eq]
  cases hlast : rules.lastMatch? path isDirectory with
  | none => exact absurd hmatches (lastMatch?_eq_none_iff.1 hlast)
  | some rule =>
      obtain ⟨before, after, hsplit, -⟩ := lastMatch?_eq_some_iff.1 hlast
      have hrule : rule.negated = false := h rule (by rw [hsplit]; simp)
      simp [hrule]

/-! ### The first place about which something is said -/

theorem firstDecided_append (vs ws : List Verdict) : firstDecided (vs ++ ws) =
    if firstDecided vs = .undecided then firstDecided ws else firstDecided vs := by
  induction vs with
  | nil => rfl
  | cons v vs ih =>
      cases v with
      | undecided => exact ih
      | ignored => rfl
      | kept => rfl

theorem firstDecided_eq_kept_iff {vs : List Verdict} : firstDecided vs = .kept ↔
    ∃ before after, vs = before ++ .kept :: after ∧ ∀ v ∈ before, v = .undecided := by
  constructor
  · intro hkept
    induction vs with
    | nil => cases hkept
    | cons v vs ih =>
        cases v with
        | undecided =>
            obtain ⟨before, after, rfl, hbefore⟩ := ih hkept
            exact ⟨.undecided :: before, after, rfl, List.forall_mem_cons.2 ⟨rfl, hbefore⟩⟩
        | ignored => cases hkept
        | kept => exact ⟨[], vs, rfl, by simp⟩
  · rintro ⟨before, after, rfl, hbefore⟩
    induction before with
    | nil => rfl
    | cons v before ih =>
        obtain ⟨rfl, hrest⟩ := List.forall_mem_cons.1 hbefore
        exact ih hrest

/-! ### The rules of a project -/

/-- The rules of a project's two files. -/
def ofFiles (gitignore ignore : Option String) : IgnoreRules :=
  (gitignore.map ofFile).getD [] ++ (ignore.map ofFile).getD []

/-- The rules that a project has beside those of its files. -/
def own (excludes : List String) : IgnoreRules :=
  ofPatterns builtInPatterns ++ ofPatterns excludes

theorem given_eq (gitignore ignore : Option String) (excludes : List String) :
    given gitignore ignore excludes = ofFiles gitignore ignore ++ own excludes := by
  simp only [given, ofFiles, own, List.append_assoc]

theorem negated_of_mem_builtIn : ∀ r ∈ ofPatterns builtInPatterns, r.negated = false := by
  decide +kernel

/-- The files take a place back in: the last of their rules that matches it is negated, and no other
rule of the project matches it. -/
def TakesBack (gitignore ignore : Option String) (excludes : List String) (path : List Char)
    (isDirectory : Bool) : Prop :=
  (∃ rule, (ofFiles gitignore ignore).LastMatch path isDirectory rule ∧ rule.negated = true) ∧
    ¬ (own excludes).Matches path isDirectory

section Project

variable {gitignore ignore : Option String} {excludes : List String}

theorem negated_of_mem_own (hexcludes : ∀ r ∈ ofPatterns excludes, r.negated = false) :
    ∀ r ∈ own excludes, r.negated = false := by
  intro r hr
  rcases List.mem_append.1 hr with hr | hr
  · exact negated_of_mem_builtIn r hr
  · exact hexcludes r hr

theorem verdict_given_of_own (hexcludes : ∀ r ∈ ofPatterns excludes, r.negated = false)
    (hmatches : (own excludes).Matches path isDirectory) :
    (given gitignore ignore excludes).verdict path isDirectory = .ignored := by
  have hown := verdict_of_not_negated (negated_of_mem_own hexcludes) hmatches
  rw [given_eq, verdict_append, hown]
  rfl

theorem verdict_given_eq_kept_iff
    (hexcludes : ∀ r ∈ ofPatterns excludes, r.negated = false) :
    (given gitignore ignore excludes).verdict path isDirectory = .kept ↔
      TakesBack gitignore ignore excludes path isDirectory := by
  by_cases hmatches : (own excludes).Matches path isDirectory
  · rw [verdict_given_of_own hexcludes hmatches]
    refine ⟨fun h => ?_, fun h => absurd hmatches h.2⟩
    cases h
  · rw [given_eq, verdict_append, if_pos (verdict_eq_undecided_iff.2 hmatches),
      verdict_eq_kept_iff]
    exact (and_iff_left hmatches).symm

end Project

/-! ### Below an excluded directory -/

/-- The first of some places that any rule matches is one that the files take back in. -/
def TakesBackFirst (gitignore ignore : Option String) (excludes : List String)
    (places : List (List Char × Bool)) : Prop :=
  ∃ before place after, places = before ++ place :: after ∧
    (∀ p ∈ before, ¬ (given gitignore ignore excludes).Matches p.1 p.2) ∧
    TakesBack gitignore ignore excludes place.1 place.2

/-- What the rules say about places, in turn. -/
def verdicts (rules : IgnoreRules) (places : List (List Char × Bool)) : List Verdict :=
  places.map fun place => rules.verdict place.1 place.2

theorem firstDecided_verdicts_eq_kept_iff {gitignore ignore : Option String}
    {excludes : List String} (hexcludes : ∀ r ∈ ofPatterns excludes, r.negated = false)
    (places : List (List Char × Bool)) :
    firstDecided ((given gitignore ignore excludes).verdicts places) = .kept ↔
      TakesBackFirst gitignore ignore excludes places := by
  rw [firstDecided_eq_kept_iff]
  constructor
  · rintro ⟨before, after, hsplit, hbefore⟩
    obtain ⟨left, right, rfl, rfl, hright⟩ := List.map_eq_append_iff.1 hsplit
    obtain ⟨place, right, rfl, hplace, rfl⟩ := List.map_eq_cons_iff.1 hright
    refine ⟨left, place, right, rfl, ?_, (verdict_given_eq_kept_iff hexcludes).1 hplace⟩
    intro p hp
    exact verdict_eq_undecided_iff.1 (hbefore _ (List.mem_map_of_mem hp))
  · rintro ⟨left, place, right, rfl, hleft, hplace⟩
    let rules := given gitignore ignore excludes
    refine ⟨rules.verdicts left, rules.verdicts right, ?_, ?_⟩
    · simp [verdicts, rules, (verdict_given_eq_kept_iff hexcludes).2 hplace]
    · intro v hv
      obtain ⟨p, hp, rfl⟩ := List.mem_map.1 hv
      exact verdict_eq_undecided_iff.2 (hleft p hp)

theorem verdictUpward_eq (rules : IgnoreRules) {path dir : List Char}
    {inner outer : List (List Char)} (hdir : Path.ancestors path = inner ++ dir :: outer) :
    rules.verdictUpward path isDirectory =
      firstDecided (rules.verdicts ((path, isDirectory) :: inner.map (·, true)) ++
        rules.verdict dir true :: outer.map fun dir => rules.verdict dir true) := by
  simp only [verdictUpward, hdir, verdicts, List.map_append, List.map_cons, List.map_map,
    List.cons_append]
  rfl

/-- Where a directory is left out, a file below it is too, unless a place short of the directory is
taken back in first. -/
theorem given_ignores_iff {gitignore ignore : Option String} {excludes : List String}
    (hexcludes : ∀ r ∈ ofPatterns excludes, r.negated = false) {path dir : List Char}
    {inner outer : List (List Char)} (hdir : Path.ancestors path = inner ++ dir :: outer)
    (hmatches : (own excludes).Matches dir true) :
    (given gitignore ignore excludes).ignores path false = true ↔
      ¬ TakesBackFirst gitignore ignore excludes ((path, false) :: inner.map (·, true)) := by
  have hexcluded : (given gitignore ignore excludes).verdict dir true = .ignored :=
    verdict_given_of_own hexcludes hmatches
  -- The directory is decided, so what is said about the places before it settles the matter.
  rw [ignores, decide_eq_true_iff, verdictUpward_eq _ hdir, hexcluded, firstDecided_append,
    ← firstDecided_verdicts_eq_kept_iff hexcludes]
  cases firstDecided ((given gitignore ignore excludes).verdicts
    ((path, false) :: inner.map (·, true))) with
  | undecided => simp [firstDecided]
  | ignored => simp
  | kept => simp

/-- Without rules nothing is left out. -/
theorem ignores_nil (path : List Char) (isDirectory : Bool) :
    ignores [] path isDirectory = false := by
  have hundecided : ∀ vs : List Verdict, (∀ v ∈ vs, v = .undecided) →
      firstDecided vs = .undecided := by
    intro vs hvs
    induction vs with
    | nil => rfl
    | cons v vs ih =>
        obtain ⟨rfl, hrest⟩ := List.forall_mem_cons.1 hvs
        exact ih hrest
  have hall : verdictUpward [] path isDirectory = .undecided := by
    refine hundecided _ fun v hv => ?_
    rcases List.mem_cons.1 hv with rfl | hv
    · rfl
    · obtain ⟨dir, -, rfl⟩ := List.mem_map.1 hv
      rfl
  rw [ignores, hall]
  rfl

/-- **Files below an excluded directory**: where a built-in pattern or a configured one leaves a
directory out, a file below it is left out exactly if the rules given for the project compile and,
going outwards from the file, the first place short of the directory that any rule matches is not
one that the project's files take back in. -/
theorem ignores_below_excluded_iff (compiles : IgnoreRules → Bool)
    (gitignore ignore : Option String) (excludes : List String)
    (hexcludes : ∀ r ∈ ofPatterns excludes, r.negated = false) (path dir : List Char)
    (inner outer : List (List Char)) (hdir : Path.ancestors path = inner ++ dir :: outer)
    (hmatches : (own excludes).Matches dir true) :
    (forProject compiles gitignore ignore excludes).ignores path false = true ↔
      compiles (given gitignore ignore excludes) = true ∧
        ¬ TakesBackFirst gitignore ignore excludes ((path, false) :: inner.map (·, true)) := by
  rw [forProject, compiled]
  cases hcompiles : compiles (given gitignore ignore excludes) with
  | true =>
      rw [if_pos rfl, given_ignores_iff hexcludes hdir hmatches]
      exact (and_iff_right rfl).symm
  | false =>
      rw [if_neg Bool.false_ne_true, ignores_nil]
      exact iff_of_false Bool.false_ne_true fun h => Bool.false_ne_true h.1

/-- A file below a directory of dependencies stays out, although the ignore files negate the
directory itself and patterns for other files. -/
theorem dependency_ignored :
    (∀ r ∈ ofPatterns ["fixtures/"], r.negated = false) ∧
      Path.ancestors "node_modules/dep/index.js".toList =
        ["node_modules/dep".toList] ++ "node_modules".toList :: [[]] ∧
      (own ["fixtures/"]).Matches "node_modules".toList true ∧
      (forProject (fun _ => true) (some "!node_modules/\n!keep.js\n") (some "!dep.js\n")
        ["fixtures/"]).ignores "node_modules/dep/index.js".toList false = true := by
  have hexcludes : ∀ r ∈ ofPatterns ["fixtures/"], r.negated = false := by decide +kernel
  have hdir : Path.ancestors "node_modules/dep/index.js".toList =
      ["node_modules/dep".toList] ++ "node_modules".toList :: [[]] := by decide +kernel
  have hmatches : (own ["fixtures/"]).Matches "node_modules".toList true := by decide +kernel
  refine ⟨hexcludes, hdir, hmatches, ?_⟩
  refine (ignores_below_excluded_iff _ _ _ _ hexcludes _ _ _ _ hdir hmatches).2
    ⟨rfl, fun htaken => ?_⟩
  have hkept := (firstDecided_verdicts_eq_kept_iff hexcludes _).2 htaken
  revert hkept
  decide +kernel

/-- **A file below an excluded directory can be taken back in** by a pattern for the file itself. -/
theorem keptDependency_not_ignored :
    Path.ancestors "node_modules/keep.js".toList = ["node_modules".toList, []] ∧
      (own []).Matches "node_modules".toList true ∧
      (forProject (fun _ => true) (some "!keep.js\n") none []).ignores
        "node_modules/keep.js".toList false = false := by
  decide +kernel

end IgnoreRules

end ExportSurface

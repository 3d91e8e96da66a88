/-
Saved settings are loaded again.

A text that is put at a place can only add directories, so a path that led to the place before
leads there afterwards, and what is read there is the document of the settings.

Main definitions:

* `Settings.afterSave` — the store after an attempt to save.

Main results:

* `FileStore.locate_put` — a path leads where it led before a text was put somewhere;
* `Settings.save_eq_ok_iff` — when settings can be saved;
* `Settings.saved_settings_load` — what was saved is loaded, and a file that is there stays as it is
  unless overwriting was asked for.
-/

import ExportSurface.Proofs.SettingsDocument
import ExportSurface.SettingsFile

set_option autoImplicit false

namespace ExportSurface

namespace FileStore

variable {s : FileStore} {place other : Location} {text path : String}

/-! ### A text put at a place -/

theorem textIn?_putIn (place other : Location) (text : String) (files : List (Location × String)) :
    textIn? other (putIn place text files) =
      if place = other then some text else textIn? other files := by
  induction files with
  | nil => rfl
  | cons file files ih =>
      obtain ⟨p, old⟩ := file
      rw [putIn]
      by_cases hp : p = place
      · rw [if_pos hp, textIn?, textIn?, hp]
        split <;> rfl
      · rw [if_neg hp, textIn?, textIn?, ih]
        split
        case isTrue hother => rw [if_neg (hother ▸ Ne.symm hp)]
        case isFalse => rfl

theorem fileAt?_put : (s.put place text).fileAt? place = some text := by
  rw [fileAt?, put, textIn?_putIn, if_pos rfl]

theorem fileAt?_put_of_ne (h : place ≠ other) :
    (s.put place text).fileAt? other = s.fileAt? other := by
  rw [fileAt?, put, textIn?_putIn, if_neg h, fileAt?]

theorem any_putIn (p : Location → Bool) (place : Location) (text : String)
    (files : List (Location × String)) :
    (putIn place text files).any (fun file => p file.1) =
      (files.any (fun file => p file.1) || p place) := by
  induction files with
  | nil => simp [putIn]
  | cons file files ih =>
      rw [putIn]
      split
      case isTrue h =>
        subst h
        cases hp : p file.1 <;> simp [hp]
      case isFalse => simp [ih, Bool.or_assoc]

/-- A text at a place makes directories of the places above. -/
theorem isDirectoryAt_put :
    (s.put place text).isDirectoryAt other = (s.isDirectoryAt other || isAbove other place) := by
  have hfiles := any_putIn (isAbove other) place text s.files
  simp only [isDirectoryAt, put, Bool.or_assoc]
  rw [hfiles]

/-! ### Paths -/

theorem stepError?_eq_none_iff : s.stepError? place = none ↔ s.isDirectoryAt place = true := by
  unfold stepError?
  split
  case isTrue h => simp [h]
  case isFalse h => split <;> simp [h]

theorem follow_put (pieces : List (List Char)) {start finish : Location}
    (h : s.follow start pieces = .ok finish) :
    (s.put place text).follow start pieces = .ok finish := by
  induction pieces generalizing start with
  | nil => exact h
  | cons piece rest ih =>
      rw [follow] at h ⊢
      split at h
      case h_1 => cases h
      case h_2 hstep =>
        have hdirectory := stepError?_eq_none_iff.1 hstep
        have hstep' : (s.put place text).stepError? start = none := by
          rw [stepError?_eq_none_iff, isDirectoryAt_put, hdirectory, Bool.true_or]
        rw [hstep']
        dsimp only
        split at h
        case isTrue hstay => rw [if_pos hstay]; exact ih h
        case isFalse hleave =>
          rw [if_neg hleave]
          split at h
          case isTrue hup => rw [if_pos hup]; exact ih h
          case isFalse hdown => rw [if_neg hdown]; exact ih h

/-- A path leads where it led before a text was put somewhere. -/
theorem locate_put (h : s.locate path = .ok other) :
    (s.put place text).locate path = .ok other := by
  unfold locate at h ⊢
  split at h
  case h_1 => cases h
  case h_2 hpath => exact follow_put _ h
  case h_3 => exact follow_put _ h

theorem write_eq_ok_iff {s' : FileStore} :
    s.write path text = .ok s' ↔
      ∃ place, s.locate path = .ok place ∧ s.isDirectoryAt place = false ∧
        s' = s.put place text := by
  unfold write
  split
  case h_1 e he => simp [he]
  case h_2 place hplace =>
    cases hdirectory : s.isDirectoryAt place with
    | true => simp [hplace, hdirectory]
    | false => simpa [hplace, hdirectory] using eq_comm

theorem read_put (h : s.locate path = .ok place) : (s.put place text).read path = .ok text := by
  rw [read, locate_put h]
  simp only [fileAt?_put]

theorem hasPath_put (h : s.locate path = .ok place) : (s.put place text).hasPath path = true := by
  rw [hasPath, locate_put h]
  simp only [fileAt?_put, Option.isSome_some, Bool.true_or]

theorem hasPath_of_locate (h : s.locate path = .ok place)
    (hdirectory : s.isDirectoryAt place = false) : s.hasPath path = (s.fileAt? place).isSome := by
  simp only [hasPath, h, hdirectory, Bool.or_false]

end FileStore

namespace Settings

variable {store store' : FileStore} {path : String} {settings : Settings} {force : Bool}

/-- The store after an attempt to save settings; one that fails leaves the store as it was. -/
def afterSave (store : FileStore) (path : String) (settings : Settings) (force : Bool) :
    FileStore :=
  match save store path settings force with
  | .ok store' => store'
  | .error _ => store

/-- Settings can be saved where a path leads to no directory, and to a file only with `force`. -/
theorem save_eq_ok_iff :
    save store path settings force = .ok store' ↔
      ∃ place, store.locate path = .ok place ∧ store.isDirectoryAt place = false ∧
        (force = true ∨ store.fileAt? place = none) ∧ store' = store.put place settings.render := by
  have hallowed : ∀ {place : Location}, store.locate path = .ok place →
      store.isDirectoryAt place = false →
      ((store.hasPath path && !force) = false ↔ force = true ∨ store.fileAt? place = none) := by
    intro place hplace hdirectory
    rw [FileStore.hasPath_of_locate hplace hdirectory]
    cases force <;> simp
  have hwrite : (store.write path settings.render).mapError SettingsError.file = .ok store' ↔
      store.write path settings.render = .ok store' := by
    cases store.write path settings.render with
    | error e => constructor <;> intro h <;> cases h
    | ok written => constructor <;> intro h <;> cases h <;> rfl
  unfold save
  split
  case isTrue hrefused =>
    constructor
    · intro h
      cases h
    · rintro ⟨place, hplace, hdirectory, hfree, -⟩
      rw [← hallowed hplace hdirectory, hrefused] at hfree
      cases hfree
  case isFalse hgranted =>
    rw [Bool.not_eq_true] at hgranted
    rw [hwrite, FileStore.write_eq_ok_iff]
    constructor
    · rintro ⟨place, hplace, hdirectory, hput⟩
      exact ⟨place, hplace, hdirectory, (hallowed hplace hdirectory).1 hgranted, hput⟩
    · rintro ⟨place, hplace, hdirectory, -, hput⟩
      exact ⟨place, hplace, hdirectory, hput⟩

theorem save_eq_occupied (settings : Settings) (h : store.hasPath path = true) :
    save store path settings false = .error (.occupied path) := by
  simp [save, h]

/-- **Saved settings are loaded again.**  Saving succeeds exactly where the path leads to no
directory, and to a file only with `force`.  It then changes the text at that place alone, and what
is loaded from there are the settings.  Without `force`, a file or directory that is there is an
error, and nothing changes. -/
theorem saved_settings_load (store : FileStore) (path : String) (settings : Settings)
    (force : Bool) :
    ((∃ store', save store path settings force = .ok store') ↔
      ∃ place, store.locate path = .ok place ∧ store.isDirectoryAt place = false ∧
        (force = true ∨ store.fileAt? place = none)) ∧
    (∀ store', save store path settings force = .ok store' →
      load store' (some path) = .ok (some settings) ∧
        ∀ place, store.locate path ≠ .ok place → store'.fileAt? place = store.fileAt? place) ∧
    (store.hasPath path = true → force = false →
      save store path settings force = .error (.occupied path) ∧
        afterSave store path settings force = store) := by
  refine ⟨?_, ?_, ?_⟩
  · simp only [save_eq_ok_iff]
    constructor
    · rintro ⟨_, place, hplace, hdirectory, hfree, -⟩
      exact ⟨place, hplace, hdirectory, hfree⟩
    · rintro ⟨place, hplace, hdirectory, hfree⟩
      exact ⟨_, place, hplace, hdirectory, hfree, rfl⟩
  · intro store' hsave
    obtain ⟨place, hplace, -, -, rfl⟩ := save_eq_ok_iff.1 hsave
    refine ⟨?_, fun other hother => FileStore.fileAt?_put_of_ne ?_⟩
    · rw [load, Option.getD_some, if_pos (FileStore.hasPath_put hplace), FileStore.read_put hplace]
      simp only [parse_render]
    · rintro rfl
      exact hother hplace
  · rintro hpath rfl
    have hsave := save_eq_occupied settings hpath
    exact ⟨hsave, by rw [afterSave, hsave]⟩

/-- Settings whose patterns take each of the written forms. -/
def awkward : Settings where
  exclude :=
    ["", "vendor/", "\"quoted\"", "back\\slash", "both \" and '", "'''\"\"", "\n\"\" after a break",
      "\\ \"\"\"\n''", "\"\"\"''' \\\n\"\"\"", "\r\n", "\tcell\x00\x1f\x7f'''\"\"\"",
      "naïve \u2028 🦀"]
  analysis := { esm := false, commonJs := true, window := false }

/-- A store in which the file for settings is no document of settings. -/
def spoiled : FileStore where
  workingDirectory := ["work"]
  files := [(["work", "exportgraph.toml"], "exclude = 3")]

theorem awkward_saved :
    (∃ store', save spoiled "./exportgraph.toml" awkward true = .ok store' ∧
      load store' (some "./exportgraph.toml") = .ok (some awkward)) ∧
    save spoiled "./exportgraph.toml" awkward false = .error (.occupied "./exportgraph.toml") ∧
    afterSave spoiled "./exportgraph.toml" awkward false = spoiled := by
  obtain ⟨hsaves, hloads, -⟩ := saved_settings_load spoiled "./exportgraph.toml" awkward true
  obtain ⟨store', hsave⟩ := hsaves.2 ⟨["work", "exportgraph.toml"], rfl, rfl, .inl rfl⟩
  obtain ⟨-, -, hrefused⟩ := saved_settings_load spoiled "./exportgraph.toml" awkward false
  exact ⟨⟨store', hsave, (hloads store' hsave).1⟩, hrefused rfl rfl⟩

end Settings

end ExportSurface

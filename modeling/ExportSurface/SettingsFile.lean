/-
Settings on file.

Settings are loaded from a file of their own; without that file there are none.  A file that is
there is not overwritten unless that is asked for.

Main definitions:

* `Settings.load` — the settings in a file;
* `Settings.save` — a store with the settings in a file;
* `SettingsError` — why settings cannot be loaded or saved.
-/

import ExportSurface.File.Store
import ExportSurface.Settings

set_option autoImplicit false

namespace ExportSurface

/-- Why settings cannot be loaded or saved. -/
inductive SettingsError where
  /-- The file cannot be read or written. -/
  | file (e : FileError)
  /-- The file is no document of settings. -/
  | document
  /-- There is a file at the path already. -/
  | occupied (path : String)
  deriving DecidableEq

/-- The wording of an error. -/
def SettingsError.message : SettingsError → String
  | .file e => e.message
  | .document => "Config error: invalid document"
  | .occupied path => "config already exists at " ++ path ++ " (use --force to overwrite)"

namespace Settings

/-- The file for settings where no other is named. -/
def defaultPath : String := "exportgraph.toml"

/-- The settings in a file, if there is such a file. -/
def load (store : FileStore) (path : Option String) : Except SettingsError (Option Settings) :=
  let path := path.getD defaultPath
  if store.hasPath path then
    match store.read path with
    | .error e => .error (.file e)
    | .ok text =>
        match parse text with
        | some settings => .ok (some settings)
        | none => .error .document
  else .ok none

/-- The store with the settings in a file.  Only with `force` may the file be there already. -/
def save (store : FileStore) (path : String) (settings : Settings) (force : Bool) :
    Except SettingsError FileStore :=
  if store.hasPath path && !force then .error (.occupied path)
  else (store.write path settings.render).mapError .file

end Settings

end ExportSurface

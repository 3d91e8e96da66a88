/-
Settings and the document they are kept in.

Settings hold patterns of files to leave out and the switches of the analysis.  They are read from
a TOML document, in which unknown keys do not count and missing ones take their defaults, and
written as one.

Main definitions:

* `Settings` — the settings;
* `Settings.parse` — the settings of a document;
* `Settings.render` — the document of settings;
* `Settings.override` — switch parts of the analysis off.
-/

import ExportSurface.Analysis
import ExportSurface.Toml.Reader

set_option autoImplicit false

namespace ExportSurface

/-- The settings of a run. -/
structure Settings where
  /-- Patterns of files and directories to leave out. -/
  exclude : List String := []
  analysis : AnalysisOptions := {}
  deriving DecidableEq

namespace Settings

/-! ### Reading -/

/-- The key of a switch in the table of the analysis. -/
def esmKey : String := "check_esm_exports"

@[inherit_doc esmKey]
def commonJsKey : String := "check_common_js_exports"

@[inherit_doc esmKey]
def windowKey : String := "init_window"

/-- A switch; it is on if it is missing. -/
def switch? : Option Toml.Value → Option Bool
  | none => some true
  | some (.boolean b) => some b
  | some _ => none

/-- The switches of the analysis.  They may also be given as an array, in their order. -/
def analysis? : Toml.Value → Option AnalysisOptions
  | .table _ fields => do
      let esm ← switch? (Toml.Fields.find? esmKey fields)
      let commonJs ← switch? (Toml.Fields.find? commonJsKey fields)
      let window ← switch? (Toml.Fields.find? windowKey fields)
      return { esm, commonJs, window }
  | .array items => do
      let esm ← switch? items[0]?
      let commonJs ← switch? items[1]?
      let window ← switch? items[2]?
      return { esm, commonJs, window }
  -- A date is taken for a table that has none of the keys.
  | .date _ => some {}
  | _ => none

/-- A text in an array of texts. -/
def string? : Toml.Value → Option String
  | .string text => some text
  | _ => none

/-- The patterns of files to leave out. -/
def exclude? : Toml.Value → Option (List String)
  | .array items => items.mapM string?
  | _ => none

/-- The settings of a document, given its fields. -/
def ofFields? (fields : Toml.Fields) : Option Settings := do
  let exclude ←
    match fields.find? "exclude" with
    | some value => exclude? value
    | none => some []
  let analysis ←
    match fields.find? "analysis" with
    | some value => analysis? value
    | none => some {}
  return { exclude, analysis }

/-- The settings of a document, if it is a document of settings. -/
def parse (text : String) : Option Settings := (Toml.parse text).bind ofFields?

/-! ### Writing -/

/-- An array of texts: on one line if it has less than two, else an item on each line. -/
def renderTexts (texts : List String) : List Char :=
  match texts with
  | [] => "[]".toList
  | [text] => ['['] ++ Toml.writeText text.toList ++ [']']
  | _ =>
      "[\n".toList ++
        texts.flatMap (fun text => "    ".toList ++ Toml.writeText text.toList ++ ",\n".toList) ++
        [']']

/-- A line with a switch. -/
def renderSwitch (key : String) (on : Bool) : List Char :=
  key.toList ++ " = ".toList ++ (if on then "true" else "false").toList ++ ['\n']

/-- The document of settings. -/
def render (s : Settings) : String :=
  String.ofList <|
    "exclude = ".toList ++ renderTexts s.exclude ++ "\n\n[analysis]\n".toList ++
      renderSwitch esmKey s.analysis.esm ++ renderSwitch commonJsKey s.analysis.commonJs ++
      renderSwitch windowKey s.analysis.window

/-! ### Overriding -/

/-- Switch parts of the analysis off. -/
def override (s : Settings) (noEsm noCommonJs noWindow : Bool) : Settings :=
  { s with
    analysis :=
      { esm := s.analysis.esm && !noEsm
        commonJs := s.analysis.commonJs && !noCommonJs
        window := s.analysis.window && !noWindow } }

end Settings

end ExportSurface

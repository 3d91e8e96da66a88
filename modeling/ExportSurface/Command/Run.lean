/-
The commands.

A command reads files of a store and answers what it writes to the two outputs, with the exit code
and the store it leaves behind.  A file that cannot be analyzed is reported and skipped when several
are listed, and ends the command when it is the only one.

Main definitions:

* `Outcome` — what running a command comes to;
* `loadAst` — the syntax tree of a file;
* `run` — run the program on arguments.
-/

import ExportSurface.Command.Arguments
import ExportSurface.Json.Printer
import ExportSurface.SettingsFile
import ExportSurface.Sources
import ExportSurface.Terminal.Style
import ExportSurface.Terminal.Table

set_option autoImplicit false

namespace ExportSurface

/-- What a command leaves: the exit code, the two outputs, and the files. -/
structure Outcome where
  code : Nat := 0
  stdout : String := ""
  stderr : String := ""
  store : FileStore

/-- How a run is set up around its arguments. -/
structure Environment where
  /-- The wish for quiet, as it was put. -/
  quiet : Option String := none
  theme : Theme := .plain
  /-- The rows of patterns that the matcher compiles. -/
  compiles : IgnoreRules → Bool := fun _ => true

namespace Environment

/-- Is the output to be free of banners? -/
def isQuiet (env : Environment) : Bool :=
  env.quiet.any fun v => v = "1" || v.toList.map Char.toLower = "true".toList

/-- The line that a command starts with. -/
def header (env : Environment) (text : String) : String :=
  "🚀 " ++ env.theme.header.apply text ++ "\n"

def success (env : Environment) (text : String) : String :=
  "✅ " ++ env.theme.success.apply text ++ "\n"

def failed (env : Environment) (text : String) : String :=
  "❌ " ++ env.theme.error.apply text ++ "\n"

def warning (env : Environment) (text : String) : String :=
  "⚠️ " ++ env.theme.warn.apply text ++ "\n"

/-- The title of a part of the output. -/
def sectionTitle (env : Environment) (title : String) : String :=
  "\n━" ++ env.theme.header.apply title ++ "━\n"

def summaryRow (env : Environment) (label value : String) : String :=
  "  " ++ env.theme.dim.apply label ++ " " ++ value ++ "\n"

end Environment

/-! ### Files -/

/-- Why a file has no syntax tree. -/
inductive LoadError where
  | file (e : FileError)
  | source (e : SourceError)
  /-- The language of the file is not known. -/
  | unknownLanguage (path : String)

/-- The wording of an error. -/
def SourceError.message : SourceError → String
  | .json .endOfText => "JSON error: unexpected end of input"
  | .json .malformed => "JSON error: malformed input"
  | .malformed path cause => cause.report path

@[inherit_doc SourceError.message]
def LoadError.message : LoadError → String
  | .file e => e.message
  | .source e => e.message
  | .unknownLanguage path => "no syntax adapter for " ++ path

/-- The syntax tree of a file. -/
def loadAst (store : FileStore) (path : String) : Except LoadError Ast :=
  match store.read path with
  | .error e => .error (.file e)
  | .ok content =>
      match parseFile? path content with
      | some parsed => parsed.mapError .source
      | none => .error (.unknownLanguage path)

/-! ### Values as JSON -/

def CandidateStatus.toJson (s : CandidateStatus) : Json :=
  .object
    [("node", .number (.natural s.candidate.node)), ("name", .string s.candidate.name),
      ("kind", .string s.candidate.kind.text), ("line", .number (.natural s.candidate.line)),
      ("exported", .bool s.exported)]

def Report.toJson (r : Report) : Json :=
  .object [("path", .string r.path), ("candidates", .array (r.candidates.map (·.toJson)))]

def Diagnostic.toJson (d : Diagnostic) : Json :=
  let about : String × List (String × Json) :=
    match d with
    | .missingProperty _ property => ("missing_property", [("property", .string property)])
    | .unresolvedValue _ name => ("unresolved_value", [("name", .string name)])
    | .unresolvedTarget _ target => ("unresolved_target", [("target", .string target)])
    | .unsupported _ kind => ("unsupported", [("kind", .string kind)])
    | .nestingLimit _ => ("nesting_limit", [])
  .object (("reason", .string about.1) :: ("node", .number (.natural d.node)) :: about.2)

/-! ### Listing exports -/

/-- The reports of files, and what is said about those that have none. -/
structure Survey where
  reports : List Report := []
  failures : Nat := 0
  messages : String := ""

/-- Add a file to a survey. -/
def Survey.addFile (env : Environment) (store : FileStore) (options : AnalysisOptions) (all : Bool)
    (s : Survey) (file : String) : Survey :=
  match loadAst store file with
  | .error e =>
      { s with
        failures := s.failures + 1
        messages := s.messages ++ env.failed (file ++ ": " ++ e.message) }
  | .ok ast =>
      let report := Report.build file ast (Analysis.ofAst ast options).graph options
      { s with reports := s.reports ++ [if all then report else report.retainExported] }

/-- Add the files at or below a path to a survey. -/
def Survey.addPath (env : Environment) (store : FileStore) (settings : Settings) (all : Bool)
    (s : Survey) (path : String) : Survey :=
  let files := store.sources env.compiles path settings.exclude
  let s :=
    if files.isEmpty then
      { s with messages := s.messages ++ env.warning ("No analyzable files under " ++ path) }
    else s
  files.foldl (Survey.addFile env store settings.analysis all) s

/-- One exported candidate on a line. -/
def candidateLine (env : Environment) (s : CandidateStatus) : String :=
  "  🟢 " ++ s.candidate.name ++ " " ++
    env.theme.muted.apply
      ("(" ++ s.candidate.kind.text ++ ", line " ++ toString s.candidate.line ++ ")") ++ "\n"

/-- The part of the output for one file. -/
def reportText (env : Environment) (all : Bool) (r : Report) : String :=
  if r.candidates.isEmpty && !all then ""
  else
    env.sectionTitle (" 📄 " ++ r.path ++ " ") ++
      if all then r.table ++ "\n"
      else String.join ((r.candidates.filter (·.exported)).map (candidateLine env))

/-- The counts at the end of the output. -/
def surveySummary (env : Environment) (s : Survey) : String :=
  let exported := (s.reports.map Report.exportedCount).foldr Nat.add 0
  "\n" ++ env.summaryRow "Files:" (toString s.reports.length) ++
    env.summaryRow "Exported:" (toString exported) ++
    if s.failures = 0 then "" else env.summaryRow "Failed:" (toString s.failures)

def runExports (env : Environment) (store : FileStore) (settings : Settings) (paths : List String)
    (format : OutputFormat) (all : Bool) : Outcome :=
  let survey := paths.foldl (Survey.addPath env store settings all) {}
  let stdout :=
    match format with
    | .json => (Json.array (survey.reports.map Report.toJson)).pretty ++ "\n"
    | .text =>
        (if env.isQuiet then "" else env.header "Analyzing exports") ++
          String.join (survey.reports.map (reportText env all)) ++
          if env.isQuiet then "" else surveySummary env survey
  { stdout, stderr := survey.messages, store }

/-! ### The other commands -/

/-- A command that ends with an error. -/
def failure (store : FileStore) (message : String) : Outcome :=
  { code := 1, stderr := "Error: " ++ message ++ "\n", store }

def runStats (env : Environment) (store : FileStore) (settings : Settings) (file : String) :
    Outcome :=
  match loadAst store file with
  | .error e => failure store e.message
  | .ok ast =>
      let stats := (Analysis.ofAst ast settings.analysis).graph.stats
      let rows :=
        [("Syntax nodes", ast.size), ("Candidates", ast.candidates.length),
          ("Symbols", stats.symbols), ("Objects", stats.objects), ("Literals", stats.literals),
          ("Placeholders", stats.placeholders), ("Property edges", stats.edges),
          ("Globals", stats.globals), ("Exported symbols", stats.exported)]
      let banner := if env.isQuiet then "" else env.header ("Symbol graph for " ++ file)
      let table := statsTable (rows.map fun (label, n) => (label, toString n))
      { stdout := banner ++ table ++ "\n", store }

/-- A number with blanks in front of it up to four columns. -/
def lineNumber (n : Nat) : String :=
  let digits := toString n
  "".pushn ' ' (4 - digits.length) ++ digits

def diagnosticLine (env : Environment) (ast : Ast) (d : Diagnostic) : String :=
  "  " ++ env.theme.dim.apply ("line " ++ lineNumber (ast.span d.node).start) ++ " " ++ d.message ++
    "\n"

def runExplain (env : Environment) (store : FileStore) (settings : Settings) (file : String)
    (format : OutputFormat) : Outcome :=
  match loadAst store file with
  | .error e => failure store e.message
  | .ok ast =>
      let diagnostics := (Analysis.ofAst ast settings.analysis).diagnostics.toList
      let stdout :=
        match format with
        | .json => (Json.array (diagnostics.map Diagnostic.toJson)).pretty ++ "\n"
        | .text =>
            if diagnostics.isEmpty then env.success "Every supported construct was bound."
            else
              String.join (diagnostics.map (diagnosticLine env ast)) ++
                if env.isQuiet then "" else env.summaryRow "Skipped:" (toString diagnostics.length)
      { stdout, store }

def runInit (env : Environment) (store : FileStore) (path : String) (force : Bool) : Outcome :=
  match Settings.save store path {} force with
  | .error e => failure store e.message
  | .ok store => { stdout := env.success ("Wrote " ++ path), store }

/-! ### The program -/

def versionText : String := "exportgraph 0.0.1\n"

def helpText : String :=
  "Static export-reachability analysis for JavaScript modules\n\n" ++
  "Usage: exportgraph [OPTIONS] <COMMAND>\n\n" ++
  "Commands:\n" ++
  "  exports  List exported candidates of files or directories\n" ++
  "  stats    Show symbol graph statistics for a file\n" ++
  "  explain  List constructs the binder skipped in a file\n" ++
  "  init     Write a default exportgraph.toml\n" ++
  "  help     Print this message or the help of the given subcommand(s)\n\n" ++
  "Options:\n" ++
  "  -v, --verbose...       Enable verbose logging (-vv for trace)\n" ++
  "  -c, --config <CONFIG>  Path to the config file (defaults to ./exportgraph.toml)\n" ++
  "      --no-esm           Ignore `export` declarations\n" ++
  "      --no-commonjs      Ignore module.exports / exports\n" ++
  "      --no-window        Do not alias `window` to the global scope\n" ++
  "  -h, --help             Print help\n" ++
  "  -V, --version          Print version\n"

def misuseText : String :=
  "error: invalid arguments\n\nUsage: exportgraph [OPTIONS] <COMMAND>\n\n" ++
  "For more information, try '--help'.\n"

/-- Run a command with its settings. -/
def Invocation.run (env : Environment) (store : FileStore) (i : Invocation) : Outcome :=
  match Settings.load store i.config with
  | .error e => failure store e.message
  | .ok loaded =>
      let settings := (loaded.getD {}).override i.noEsm i.noCommonJs i.noWindow
      match i.command with
      | .exports paths format all => runExports env store settings paths format all
      | .stats file => runStats env store settings file
      | .explain file format => runExplain env store settings file format
      | .init force => runInit env store (i.config.getD Settings.defaultPath) force

/-- Run the program on arguments. -/
def run (env : Environment) (store : FileStore) (args : List String) : Outcome :=
  match Request.parse args with
  | .run invocation => invocation.run env store
  | .help => { stdout := helpText, store }
  | .version => { stdout := versionText, store }
  | .misuse => { code := 2, stderr := misuseText, store }

end ExportSurface

/-
Rules that leave files out.

Rules are patterns in the order in which they were given, and the last one that matches a path
decides about it.  A pattern that starts with `!` takes a path back in, one that ends with a slash
is for directories only, and one with a slash elsewhere is tied to the directory of the rules.

Main definitions:

* `IgnoreRule.parse` — the rule on a line;
* `IgnoreRules.verdict` — what the rules say about a path;
* `IgnoreRules.verdictUpward` — about a path, or else about the directories around it;
* `IgnoreRules.given` — the rules that are given for a project: those of its own files, the built-in
  patterns and the configured ones;
* `IgnoreRules.forProject` — the rules that it has, which are none if the given ones do not compile.

All patterns of a row are compiled to one matcher, and a matcher that grows too large is refused.
Which rows are refused is a matter of the compiler, and a parameter here.
-/

import ExportSurface.File.Path
import ExportSurface.Ignore.Glob

set_option autoImplicit false

namespace ExportSurface

/-- A rule. -/
structure IgnoreRule where
  /-- The rule takes paths back in. -/
  negated : Bool
  /-- The rule is for directories only. -/
  directoryOnly : Bool
  glob : List Glob.Piece

/-- What rules say about a path. -/
inductive Verdict where
  | ignored
  | kept
  | undecided
  deriving DecidableEq

/-! ### Lines -/

/-- The blanks that do not count at the end of a line. -/
def isTrailingBlank (c : Char) : Bool :=
  let n := c.toNat
  (9 ≤ n && n ≤ 13) || n == 0x20 || n == 0x85 || n == 0xA0 || n == 0x1680 ||
    (0x2000 ≤ n && n ≤ 0x200A) || n == 0x2028 || n == 0x2029 || n == 0x202F || n == 0x205F ||
    n == 0x3000

def trimEnd (cs : List Char) : List Char := (cs.reverse.dropWhile isTrailingBlank).reverse

/-- Drop the last character if it is the given one; answers whether it was. -/
def dropLastIf (c : Char) (cs : List Char) : Bool × List Char :=
  if cs.getLast? = some c then (true, cs.dropLast) else (false, cs)

namespace IgnoreRule

/-- The marks at the start of a line: does it take paths back in, is it tied to the directory of
the rules, and what is left?  A backslash quotes the first mark. -/
def leadingMarks (line : List Char) : Bool × Bool × List Char :=
  match line with
  | '\\' :: '!' :: _ | '\\' :: '#' :: _ => (false, false, line.drop 1)
  | _ =>
      let (negated, line) :=
        match line with
        | '!' :: rest => (true, rest)
        | _ => (false, line)
      match line with
      | '/' :: rest => (negated, true, rest)
      | _ => (negated, false, line)

/-- The pattern with what it leaves unsaid: a pattern for a single name matches at any depth, and
one that ends in two stars only what is below. -/
def complete (tied : Bool) (pattern : List Char) : List Char :=
  let anywhere := !tied && !pattern.contains '/' && pattern ≠ ['*', '*']
  let pattern := if anywhere then "**/".toList ++ pattern else pattern
  if "/**".toList.isSuffixOf pattern then pattern ++ "/*".toList else pattern

/-- The rule on a line.  Comments, blank lines and malformed patterns give none. -/
def parse (line : List Char) : Option IgnoreRule :=
  if line.head? = some '#' then none
  else
    let line := if "\\ ".toList.isSuffixOf line then line else trimEnd line
    if line.isEmpty then none
    else
      let (negated, tied, pattern) := leadingMarks line
      let (directoryOnly, pattern) := dropLastIf '/' pattern
      let pattern := if directoryOnly then (dropLastIf '\\' pattern).2 else pattern
      (Glob.parse (complete tied pattern)).map fun glob => { negated, directoryOnly, glob }

/-- Does a rule match a path? -/
def «matches» (r : IgnoreRule) (path : List UInt8) (isDirectory : Bool) : Bool :=
  (isDirectory || !r.directoryOnly) && Glob.matches r.glob path

end IgnoreRule

/-! ### Rules together -/

/-- Rules in the order in which they were given. -/
abbrev IgnoreRules := List IgnoreRule

namespace IgnoreRules

/-- What the rules say about a path: the last rule that matches it decides. -/
def verdict (rules : IgnoreRules) (path : List Char) (isDirectory : Bool) : Verdict :=
  let bytes := (String.ofList path).toUTF8.toList
  match rules.reverse.find? (·.matches bytes isDirectory) with
  | some rule => if rule.negated then .kept else .ignored
  | none => .undecided

/-- The first of several verdicts that is one. -/
def firstDecided : List Verdict → Verdict
  | [] => .undecided
  | .undecided :: rest => firstDecided rest
  | v :: _ => v

/-- What the rules say about a path, or else about the directories around it, from the inside
out. -/
def verdictUpward (rules : IgnoreRules) (path : List Char) (isDirectory : Bool) : Verdict :=
  firstDecided (rules.verdict path isDirectory ::
    (Path.ancestors path).map fun dir => rules.verdict dir true)

/-- Is a path left out? -/
def ignores (rules : IgnoreRules) (path : List Char) (isDirectory : Bool) : Bool :=
  rules.verdictUpward path isDirectory = .ignored

/-! ### Where rules come from -/

/-- The lines of a text that is cut at its breaks.  A carriage return before a break belongs to the
break; what comes after the last break is a line only if there is something. -/
def closeLines (line : List Char) : List (List Char) → List (List Char)
  | [] => if line.isEmpty then [] else [line]
  | next :: rest => (dropLastIf '\r' line).2 :: closeLines next rest

def linesOf (text : List Char) : List (List Char) :=
  let (first, others) := Path.splitAt '\n' text
  closeLines first others

/-- The rules in a file; marks of the encoding at its start do not count. -/
def ofFile (text : String) : IgnoreRules :=
  (linesOf (text.toList.dropWhile (· == '\ufeff'))).filterMap IgnoreRule.parse

/-- The patterns that every project has: directories of dependencies, of build results and of
tools, and generated files. -/
def builtInPatterns : List String :=
  ["node_modules/", "bower_components/", "jspm_packages/", "vendor/",
    "dist/", "build/", "coverage/", ".next/", ".nuxt/", ".cache/",
    ".git/", ".exportgraph/", ".vscode/", ".idea/",
    "*.min.js", "*.bundle.js", "*.map"]

/-- The rules of patterns. -/
def ofPatterns (patterns : List String) : IgnoreRules :=
  patterns.filterMap fun pattern => IgnoreRule.parse pattern.toList

/-- The rules given for a project: those of its two files, the built-in ones, and the configured
ones. -/
def given (gitignore ignore : Option String) (excludes : List String) : IgnoreRules :=
  (gitignore.map ofFile).getD [] ++ (ignore.map ofFile).getD [] ++ ofPatterns builtInPatterns ++
    ofPatterns excludes

/-- Rules as far as they compile: all of them, or none. -/
def compiled (compiles : IgnoreRules → Bool) (rules : IgnoreRules) : IgnoreRules :=
  if compiles rules then rules else []

/-- The rules of a project. -/
def forProject (compiles : IgnoreRules → Bool) (gitignore ignore : Option String)
    (excludes : List String) : IgnoreRules :=
  compiled compiles (given gitignore ignore excludes)

end IgnoreRules

end ExportSurface

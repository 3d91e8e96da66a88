/-
The languages a module can be written in.

The name of a file decides how its text is read: a decoded syntax tree has a name of its own kind,
and JavaScript is known by its extensions.

Main definitions:

* `Language.ofPath?` — the language of a file;
* `Language.parse` — the syntax tree of a text;
* `SourceError` — why a text has none.
-/

import ExportSurface.Estree.Lowering
import ExportSurface.File.Path
import ExportSurface.JavaScript.Lowering
import ExportSurface.Json.Reader

set_option autoImplicit false

namespace ExportSurface

/-- A language that modules are read from. -/
inductive Language where
  /-- A syntax tree in the ESTree form, written as JSON. -/
  | estree
  | javaScript
  deriving DecidableEq

/-- Why a text has no syntax tree. -/
inductive SourceError where
  /-- The text is no JSON. -/
  | json (fault : Json.Fault)
  /-- The tree, which may have come from a file, is refused. -/
  | malformed (path : Option String) (cause : Estree.Malformed)

/-- The wording for a refused tree. -/
def Estree.Malformed.report (path : Option String) (cause : Estree.Malformed) : String :=
  match path with
  | some path => "Malformed syntax tree: " ++ path ++ ": " ++ cause.message
  | none => "Malformed syntax tree: " ++ cause.message

namespace Language

def name : Language → String
  | .estree => "ESTree"
  | .javaScript => "JavaScript"

/-- The extensions of files in a language. -/
def extensions : Language → List String
  | .estree => ["json"]
  | .javaScript => ["js", "mjs", "cjs", "jsx"]

/-- The ending of the names of files with syntax trees. -/
def treeSuffix : List Char := ".estree.json".toList

/-- Is a file of the given path written in the language? -/
def reads (language : Language) (path : String) : Bool :=
  match language with
  | .estree => (Path.fileName? path.toList).any treeSuffix.isSuffixOf
  | .javaScript =>
      (Path.extension? path.toList).any fun e => language.extensions.contains (String.ofList e)

/-- The language of a file; trees come first. -/
def ofPath? (path : String) : Option Language :=
  [Language.estree, .javaScript].find? (·.reads path)

/-- The syntax tree of a text from the given file. -/
def parse (language : Language) (path content : String) : Except SourceError Ast :=
  match language with
  | .estree =>
      match Json.parse Json.maxDepth content with
      | .ok tree => (Estree.lower tree).mapError (.malformed (some path))
      | .error fault => .error (.json fault)
  | .javaScript => .ok (JavaScript.parseSource content)

end Language

/-- The syntax tree of a file, if its language is known. -/
def parseFile? (path content : String) : Option (Except SourceError Ast) :=
  (Language.ofPath? path).map fun language => language.parse path content

end ExportSurface

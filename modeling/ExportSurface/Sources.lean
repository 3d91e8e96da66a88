/-
The source files below a directory.

A walk visits the files below a directory.  It does not enter what the `.ignore` files on the way
leave out, each of which speaks for its own directory and is overruled by those further in.  Of the
visited files those count that the rules of the project keep and whose language is known.

Main definitions:

* `FileStore.walkVerdict` — what the `.ignore` files say about a place;
* `FileStore.visits` — is a file visited?
* `FileStore.sources` — the source files at or below a path.
-/

import ExportSurface.File.Store
import ExportSurface.Ignore.Rules
import ExportSurface.Language

set_option autoImplicit false

namespace ExportSurface.FileStore

/-- The text of a row of names. -/
def pathText (names : List String) : List Char := ("/".intercalate names).toList

section walk

variable (s : FileStore) (compiles : IgnoreRules → Bool)

/-- The rules that the walk finds in a directory. -/
def walkRules (dir : Location) : IgnoreRules :=
  .compiled compiles (((s.fileAt? (dir ++ [".ignore"])).map IgnoreRules.ofFile).getD [])

/-- What the `.ignore` files say about a place, those further in first. -/
def walkVerdict (place : Location) (isDirectory : Bool) : Verdict :=
  IgnoreRules.firstDecided <| (List.range place.length).reverse.map fun depth =>
    (s.walkRules compiles (place.take depth)).verdict (pathText (place.drop depth)) isDirectory

/-- Is the file of the given names visited by a walk that starts at a directory?  Neither the file
nor a directory on the way may be left out. -/
def visits (root : Location) (names : List String) : Bool :=
  (List.range names.length).all fun i =>
    s.walkVerdict compiles (root ++ names.take (i + 1)) (i + 1 < names.length) ≠ .ignored

end walk

/-- Names are compared from the left. -/
def namesLe : List String → List String → Bool
  | [], _ => true
  | _ :: _, [] => false
  | a :: as, b :: bs => if a = b then namesLe as bs else decide (a < b)

/-- The names of the files below a directory, from the directory down, in order. -/
def namesBelow (s : FileStore) (root : Location) : List (List String) :=
  (s.files.filterMap fun (place, _) =>
    if isAbove root place then some (place.drop root.length) else none).mergeSort namesLe

/-- The source files at or below a path.  A file that the path leads to is taken as it is. -/
def sources (s : FileStore) (compiles : IgnoreRules → Bool) (path : String)
    (excludes : List String) : List String :=
  if s.isFile path then (if (Language.ofPath? path).isSome then [path] else [])
  else
    match s.locate path with
    | .error _ => []
    | .ok root =>
        let rules := IgnoreRules.forProject compiles (s.fileAt? (root ++ [".gitignore"]))
          (s.fileAt? (root ++ [".ignore"])) excludes
        (s.namesBelow root).filterMap fun names =>
          let text := String.ofList (Path.join path.toList (pathText names))
          if s.visits compiles root names && !rules.ignores (pathText names) false &&
              (Language.ofPath? text).isSome then
            some text
          else none

end ExportSurface.FileStore

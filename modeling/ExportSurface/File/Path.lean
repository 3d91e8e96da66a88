/-
Names in slash-separated paths.

A path is a sequence of components.  Repeated slashes, a trailing slash and components `.` other
than the first do not count.

Main definitions:

* `Path.components` — the components of a path;
* `Path.fileName?`, `Path.extension?` — the name of the file, and its part after the last dot;
* `Path.parent?`, `Path.ancestors` — the directory around a path, and all of them;
* `Path.join` — a path below a directory.
-/

set_option autoImplicit false

namespace ExportSurface.Path

/-- One component of a path. -/
inductive Component where
  /-- The slash that a path starts with. -/
  | root
  /-- A leading `.`. -/
  | here
  /-- The component `..`. -/
  | parent
  | name (text : List Char)
  deriving DecidableEq

/-- The pieces of a text between the given characters; there is always a first one. -/
def splitAt (sep : Char) (cs : List Char) : List Char × List (List Char) :=
  match cs with
  | [] => ([], [])
  | c :: rest =>
      let (first, others) := splitAt sep rest
      if c = sep then ([], first :: others) else (c :: first, others)

/-- The pieces of a path between its slashes. -/
def pieces (path : List Char) : List (List Char) :=
  let (first, others) := splitAt '/' path
  first :: others

/-- The component that a piece after the first stands for. -/
def laterComponent? (piece : List Char) : Option Component :=
  if piece = [] || piece = ['.'] then none
  else if piece = ['.', '.'] then some .parent
  else some (.name piece)

/-- The components of a path. -/
def components (path : List Char) : List Component :=
  match pieces path with
  | [] => []
  | first :: others =>
      let start :=
        if first = [] then (if others.isEmpty then [] else [.root])
        else if first = ['.'] then [.here]
        else (laterComponent? first).toList
      start ++ others.filterMap laterComponent?

/-- The name of the file that a path leads to; `..` and the root have none. -/
def fileName? (path : List Char) : Option (List Char) :=
  match (components path).getLast? with
  | some (.name text) => some text
  | _ => none

/-- The parts of a name before and after its last dot. -/
def splitLastDot? (name : List Char) : Option (List Char × List Char) :=
  let after := name.reverse.takeWhile (· != '.')
  match name.reverse.dropWhile (· != '.') with
  | [] => none
  | _ :: before => some (before.reverse, after.reverse)

/-- The part of a file's name after its last dot; a leading dot does not count. -/
def extension? (path : List Char) : Option (List Char) :=
  match (fileName? path).bind splitLastDot? with
  | some (before, after) => if before.isEmpty then none else some after
  | none => none

/-! ### Directories -/

/-- Drop the pieces at the end that do not count, from pieces in reverse order; the first piece of a
path always counts. -/
def dropUncounted : List (List Char) → List (List Char)
  | [] => []
  | [first] => [first]
  | piece :: rest => if piece = [] || piece = ['.'] then dropUncounted rest else piece :: rest

/-- The text of pieces in reverse order; an empty first piece is the root. -/
def textOfReversed (reversed : List (List Char)) : List Char :=
  match reversed with
  | [[]] => ['/']
  | _ => ['/'].intercalate reversed.reverse

/-- The directory around a path; the root and the empty path have none. -/
def parent? (path : List Char) : Option (List Char) :=
  match dropUncounted (pieces path).reverse with
  | [] | [[]] => none
  | _ :: rest => some (textOfReversed (dropUncounted rest))

/-- The directories around a path, from the inside out, at most `limit` of them. -/
def ancestorsUpTo : Nat → List Char → List (List Char)
  | 0, _ => []
  | limit + 1, path =>
      match parent? path with
      | some dir => dir :: ancestorsUpTo limit dir
      | none => []

/-- The directories around a path, from the inside out.  Each is shorter than the one before. -/
def ancestors (path : List Char) : List (List Char) := ancestorsUpTo path.length path

/-- The path of a name below a directory. -/
def join (dir path : List Char) : List Char :=
  if dir.isEmpty || dir.getLast? = some '/' then dir ++ path else dir ++ '/' :: path

end ExportSurface.Path

/-
Files by their place.

A store holds the texts of files.  The place of a file is the row of names from the root down to
it; directories are the places above files, those listed without files, and the working directory.
A path is followed piece by piece, so `..` leads out of a directory only if the directory is there.

Main definitions:

* `FileStore` — the files;
* `FileStore.locate` — the place that a path leads to;
* `FileStore.read`, `FileStore.write` — the text of a file, and a store with a new one;
* `FileError` — why a path does not lead to a file.
-/

import ExportSurface.File.Path

set_option autoImplicit false

namespace ExportSurface

/-- The names from the root down to a file or directory. -/
abbrev Location := List String

/-- The texts of files. -/
structure FileStore where
  /-- The directory that relative paths start from. -/
  workingDirectory : Location := []
  files : List (Location × String) := []
  /-- Directories that are there even if they hold no file. -/
  directories : List Location := []

/-- Why a path does not lead to a file. -/
inductive FileError where
  | notFound
  /-- A part of the path is a file but is used as a directory. -/
  | notDirectory
  | isDirectory
  deriving DecidableEq

/-- The wording of an error. -/
def FileError.message : FileError → String
  | .notFound => "No such file or directory (os error 2)"
  | .notDirectory => "Not a directory (os error 20)"
  | .isDirectory => "Is a directory (os error 21)"

namespace FileStore

/-! ### Places -/

/-- The text of the file at a place. -/
def textIn? (place : Location) : List (Location × String) → Option String
  | [] => none
  | (p, text) :: rest => if p = place then some text else textIn? place rest

/-- The text of the file at a place. -/
def fileAt? (s : FileStore) (place : Location) : Option String := textIn? place s.files

/-- Is one place a proper part of the way to another? -/
def isAbove (place other : Location) : Bool := place.isPrefixOf other && place != other

/-- Is there a directory at a place? -/
def isDirectoryAt (s : FileStore) (place : Location) : Bool :=
  place.isPrefixOf s.workingDirectory || s.directories.any (place.isPrefixOf ·) ||
    s.files.any fun (p, _) => isAbove place p

/-- The error of going on from a place, if it is no directory. -/
def stepError? (s : FileStore) (place : Location) : Option FileError :=
  if s.isDirectoryAt place then none
  else if (s.fileAt? place).isSome then some .notDirectory
  else some .notFound

/-- Follow the pieces of a path from a place.  The root is its own parent. -/
def follow (s : FileStore) : Location → List (List Char) → Except FileError Location
  | place, [] => .ok place
  | place, piece :: rest =>
      match s.stepError? place with
      | some e => .error e
      | none =>
          if piece = [] || piece = ['.'] then s.follow place rest
          else if piece = ['.', '.'] then s.follow place.dropLast rest
          else s.follow (place ++ [String.ofList piece]) rest

/-- The place that a path leads to; there need be nothing at the end of it. -/
def locate (s : FileStore) (path : String) : Except FileError Location :=
  match path.toList with
  | [] => .error .notFound
  | '/' :: rest => s.follow [] (Path.pieces rest)
  | cs => s.follow s.workingDirectory (Path.pieces cs)

/-! ### Reading -/

/-- The text of the file that a path leads to. -/
def read (s : FileStore) (path : String) : Except FileError String :=
  match s.locate path with
  | .error e => .error e
  | .ok place =>
      match s.fileAt? place with
      | some text => .ok text
      | none => .error (if s.isDirectoryAt place then .isDirectory else .notFound)

/-- Does a path lead to a file? -/
def isFile (s : FileStore) (path : String) : Bool := (s.read path).isOk

/-- Does a path lead to a file or a directory? -/
def hasPath (s : FileStore) (path : String) : Bool :=
  match s.locate path with
  | .error _ => false
  | .ok place => (s.fileAt? place).isSome || s.isDirectoryAt place

/-! ### Writing -/

/-- The files with a text at a place; the file that was there is replaced. -/
def putIn (place : Location) (text : String) :
    List (Location × String) → List (Location × String)
  | [] => [(place, text)]
  | (p, old) :: rest =>
      if p = place then (place, text) :: rest else (p, old) :: putIn place text rest

/-- The store with a text at a place. -/
def put (s : FileStore) (place : Location) (text : String) : FileStore :=
  { s with files := putIn place text s.files }

/-- The store with a text at the end of a path, which leads through directories that are there. -/
def write (s : FileStore) (path text : String) : Except FileError FileStore :=
  match s.locate path with
  | .error e => .error e
  | .ok place => if s.isDirectoryAt place then .error .isDirectory else .ok (s.put place text)

end FileStore

end ExportSurface

/-
The command line.

The files that a command may look at are read into a store, the command runs on the store, and the
files that it changed are written.

Main definitions:

* `Snapshot.take` — the files that an invocation may look at;
* `main` — the program.
-/

import ExportSurface.Command.Run

set_option autoImplicit false

namespace ExportSurface.Snapshot

/-- A place as an entry of the root directory. -/
def entryOf (place : Location) : IO.FS.DirEntry :=
  { root := "/", fileName := "/".intercalate place }

/-- Add the files and directories at and below a place.  Below it links are not followed, and what
cannot be read is left out. -/
partial def gather (store : FileStore) (place : Location) (followLink : Bool) : IO FileStore := do
  let path := (entryOf place).path
  try
    let found ← if followLink then path.metadata else path.symlinkMetadata
    match found.type with
    | .dir =>
        let mut store := { store with directories := place :: store.directories }
        for child in ← path.readDir do
          store ← gather store (place ++ [child.fileName]) false
        return store
    | .file => return store.put place (← IO.FS.readFile path)
    | _ => return store
  catch _ => return store

/-- Add a place if it is a directory, with its list of files to leave out. -/
def gatherDirectory (store : FileStore) (place : Location) : IO FileStore := do
  if ← (entryOf place).path.isDir then
    let store := { store with directories := place :: store.directories }
    gather store (place ++ [".ignore"]) true
  else return store

/-- Add what a path leads to and the directories on the way. -/
def gatherPath (store : FileStore) (path : String) : IO FileStore := do
  let mut place := if path.startsWith "/" then [] else store.workingDirectory
  let mut store := store
  for piece in path.splitOn "/" do
    if piece = ".." then place := place.dropLast
    else if piece ≠ "" && piece ≠ "." then place := place ++ [piece]
    store ← gatherDirectory store place
  gather store place true

/-- The paths that a command looks at. -/
def pathsOf : Command → List String
  | .exports paths _ _ => paths
  | .stats file => [file]
  | .explain file _ => [file]
  | .init _ => []

/-- The files that an invocation may look at. -/
def take (invocation : Invocation) : IO FileStore := do
  let here := (← IO.currentDir).toString.splitOn "/" |>.filter (· ≠ "")
  let mut store : FileStore := { workingDirectory := here }
  for n in List.range (here.length + 1) do
    store ← gatherDirectory store (here.take n)
  for path in invocation.config.getD Settings.defaultPath :: pathsOf invocation.command do
    store ← gatherPath store path
  return store

/-- Write the files that differ from those of an earlier store. -/
def writeChanges (before after : FileStore) : IO Unit := do
  for (place, text) in after.files do
    if before.fileAt? place ≠ some text then
      IO.FS.writeFile (entryOf place).path text

end ExportSurface.Snapshot

open ExportSurface in
/-- The program. -/
def main (args : List String) : IO UInt32 := do
  let store ←
    match Request.parse args with
    | .run invocation => Snapshot.take invocation
    | _ => pure {}
  let outcome := ExportSurface.run { quiet := ← IO.getEnv "EXPORTGRAPH_QUIET" } store args
  (← IO.getStdout).putStr outcome.stdout
  (← IO.getStderr).putStr outcome.stderr
  Snapshot.writeChanges store outcome.store
  return UInt32.ofNat outcome.code

/-
The values of a TOML document.

A table knows how it came to be, because that decides whether later lines may add to it: a table
with a header of its own, one that is only named on the way to another, one that dotted keys build
up, or one written in braces, which is closed.

Main definitions:

* `Value`, `Fields` — values, and the fields of a table in their order;
* `Fields.find?` — the value of a key;
* `Fields.insert?` — add a value under a dotted key;
* `Fields.open?` — add a table, or one more of a row of tables, under a header.
-/

import ExportSurface.Number.Binary64

set_option autoImplicit false

namespace ExportSurface.Toml

/-- How a table came to be. -/
inductive Origin where
  /-- It has a header. -/
  | header
  /-- It is named on the way to another table. -/
  | implied
  /-- Dotted keys build it up. -/
  | dotted
  /-- It is written in braces. -/
  | inline
  deriving DecidableEq

/-- A value. -/
inductive Value where
  | string (text : String)
  | integer (n : Int)
  | float (x : Binary64)
  | boolean (b : Bool)
  /-- A date, a time, or both, as written. -/
  | date (text : String)
  | array (items : List Value)
  | table (origin : Origin) (fields : List (String × Value))
  /-- A row of tables under one repeated header. -/
  | tables (rows : List (List (String × Value)))

/-- The fields of a table. -/
abbrev Fields := List (String × Value)

namespace Fields

/-- The value of a key. -/
def find? (key : String) : Fields → Option Value
  | [] => none
  | (k, v) :: rest => if k = key then some v else find? key rest

/-- Put a value in the place of the one a key has. -/
def replace (key : String) (value : Value) : Fields → Fields
  | [] => []
  | (k, v) :: rest => if k = key then (k, value) :: rest else (k, v) :: replace key value rest

/-- Put a table in place of the last one of a row. -/
def replaceLast (rows : List Fields) (row : Fields) : List Fields := rows.dropLast ++ [row]

/-- Add a value under a dotted key.  The tables on the way are made where they are missing; of
those that are there, the last one has to be built up by dotted keys, and none may have a header of
its own. -/
def insert? : List String → Value → Fields → Option Fields
  | [], _, _ => none
  | [key], value, fields =>
      if (find? key fields).isSome then none else some (fields ++ [(key, value)])
  | key :: rest, value, fields =>
      match find? key fields with
      | none => (insert? rest value []).map fun sub => fields ++ [(key, .table .dotted sub)]
      | some (.table .dotted sub) =>
          (insert? rest value sub).map fun sub => replace key (.table .dotted sub) fields
      | some (.table .implied sub) =>
          if rest.length = 1 then none
          else (insert? rest value sub).map fun sub => replace key (.table .implied sub) fields
      | some (.tables rows) =>
          if rest.length = 1 then none
          else
            (insert? rest value (rows.getLast?.getD [])).map fun row =>
              replace key (.tables (replaceLast rows row)) fields
      | some _ => none

/-- Change the table at the end of a path.  Tables on the way are made where they are missing, and
of a row of tables the last one is taken. -/
def descend? (change : Fields → Option Fields) : List String → Fields → Option Fields
  | [], fields => change fields
  | key :: rest, fields =>
      match find? key fields with
      | none => (descend? change rest []).map fun sub => fields ++ [(key, .table .implied sub)]
      | some (.table .inline _) => none
      | some (.table origin sub) =>
          (descend? change rest sub).map fun sub => replace key (.table origin sub) fields
      | some (.tables rows) =>
          (descend? change rest (rows.getLast?.getD [])).map fun row =>
            replace key (.tables (replaceLast rows row)) fields
      | some _ => none

/-- Add several values under their dotted keys. -/
def insertAll? (pairs : List (List String × Value)) (fields : Fields) : Option Fields :=
  pairs.foldlM (fun fields (key, value) => insert? key value fields) fields

/-- Add a table with the given content under a key; the table may be there already if it was only
named on the way to another. -/
def addTable? (key : String) (pairs : List (List String × Value)) (fields : Fields) :
    Option Fields :=
  match find? key fields with
  | none => (insertAll? pairs []).map fun sub => fields ++ [(key, .table .header sub)]
  | some (.table .implied sub) =>
      (insertAll? pairs sub).map fun sub => replace key (.table .header sub) fields
  | some _ => none

/-- Add one more table with the given content to the row under a key. -/
def addRow? (key : String) (pairs : List (List String × Value)) (fields : Fields) :
    Option Fields :=
  match find? key fields with
  | none => (insertAll? pairs []).map fun row => fields ++ [(key, .tables [row])]
  | some (.tables rows) =>
      (insertAll? pairs []).map fun row => replace key (.tables (rows ++ [row])) fields
  | some _ => none

end Fields

/-- The header above a part of a document. -/
inductive Header where
  /-- The part before any header. -/
  | top
  /-- `[path]`. -/
  | table (path : List String)
  /-- `[[path]]`. -/
  | row (path : List String)
  deriving DecidableEq

/-- A header with the values below it. -/
structure Section where
  header : Header
  pairs : List (List String × Value) := []

/-- Add the part of a document below a header. -/
def Fields.addSection? (fields : Fields) (s : Section) : Option Fields :=
  match s.header with
  | .top => fields.insertAll? s.pairs
  | .table path =>
      match path.getLast? with
      | some key => fields.descend? (Fields.addTable? key s.pairs) path.dropLast
      | none => none
  | .row path =>
      match path.getLast? with
      | some key => fields.descend? (Fields.addRow? key s.pairs) path.dropLast
      | none => none

/-- The fields of a document. -/
def Fields.ofSections? (sections : List Section) : Option Fields :=
  sections.foldlM Fields.addSection? []

end ExportSurface.Toml
